import WireMapper.Protobuf.Wire

/-!
Why a descriptor set is no schema.
-/

namespace WireMapper.Protobuf

/-- The first rule found broken by a descriptor set. Declarations are named by their full names. -/
inductive LinkFault where
  | unknownVersion (file version : String)
  | repeatedFile (file : String)
  | missingImport (file name : String)
  | missingImportIndex (file : String) (index : Int)
  | repeatedName (name : String)
  | unknownType (scope name : String)
  | numberOutOfRange (field : String) (number : Int)
  | repeatedNumber (message : String) (number : Int)
  | reservedNumber (field : String) (number : Int)
  | extensionNumber (field : String) (number : Int)
  | notAnExtensionNumber (field : String) (number : Int)
  | missingOneof (field : String) (index : Int)
  | similarNames (message name : String)
  | repeatedJsonName (message name : String)
  | emptyEnum (enum : String)
  | firstValueNotZero (enum : String)
  | repeatedValue (enum : String) (number : Int)
  | reservedValue (enum : String) (number : Int)
  | unfitDefault (field text : String)
  | unreadableOptions (declaration : String) (fault : WireFault)
  | unknownOption (declaration option : String)
  | repeatedOption (declaration option : String)
  | unfitOption (declaration option : String)
deriving DecidableEq, Repr

def LinkFault.message : LinkFault → String
  | unknownVersion file version => file ++ ": unknown language version " ++ version
  | repeatedFile file => "file " ++ file ++ " is there twice"
  | missingImport file name => file ++ ": import " ++ name ++ " is missing"
  | missingImportIndex file index => file ++ ": there is no import #" ++ toString index
  | repeatedName name => name ++ " is declared twice"
  | unknownType scope name => scope ++ ": there is no type " ++ name
  | numberOutOfRange field number => field ++ ": " ++ toString number ++ " is no field number"
  | repeatedNumber message number =>
      message ++ ": field number " ++ toString number ++ " is used twice"
  | reservedNumber field number => field ++ ": number " ++ toString number ++ " is reserved"
  | extensionNumber field number =>
    field ++ ": number " ++ toString number ++ " is left to extensions"
  | notAnExtensionNumber field number =>
    field ++ ": number " ++ toString number ++ " is not left to extensions"
  | missingOneof field index => field ++ ": there is no oneof #" ++ toString index
  | similarNames message name =>
      message ++ ": field name " ++ name ++ " is too similar to another one"
  | repeatedJsonName message name => message ++ ": JSON name " ++ name ++ " is used twice"
  | emptyEnum enum => enum ++ " has no values"
  | firstValueNotZero enum => enum ++ ": the first value is not 0"
  | repeatedValue enum number => enum ++ ": value " ++ toString number ++ " is used twice"
  | reservedValue enum number => enum ++ ": value " ++ toString number ++ " is reserved"
  | unfitDefault field text => field ++ ": " ++ text ++ " is no value of the field's type"
  | unreadableOptions declaration fault => declaration ++ ": options: " ++ fault.message
  | unknownOption declaration option => declaration ++ ": there is no option " ++ option
  | repeatedOption declaration option => declaration ++ ": option " ++ option ++ " is set twice"
  | unfitOption declaration option => declaration ++ ": option " ++ option ++ " has no such value"

end WireMapper.Protobuf
