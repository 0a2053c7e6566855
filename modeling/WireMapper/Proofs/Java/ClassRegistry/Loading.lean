import Mathlib.Data.List.Nodup
import Mathlib.Data.List.TakeWhile
import WireMapper.Java.ClassRegistry.Document
import WireMapper.Proofs.Except
import WireMapper.Proofs.Java.ClassRegistry.Lookup

/-!
What a registry is after a document was loaded. The classes of a document are registered in order,
so of those with one name the last one stays. A document that cannot be read changes nothing; one
that lists a class without a name fails as well, but the classes in front of that one have been
registered by then. So a failure changes nothing exactly if these classes say nothing new.
-/

namespace WireMapper.Java.ClassRegistry

def NamesDistinct (registry : ClassRegistry) : Prop :=
  (registry.classes.map (·.name)).Nodup

def IsLastNamed (classes : List LibraryClass) (c : LibraryClass) : Prop :=
  ∃ before after, classes = before ++ c :: after ∧ ∀ d ∈ after, d.name ≠ c.name

/-- The registry holds as many classes as before, and each name leads to the same class as before.
-/
structure Unchanged (registry after : ClassRegistry) : Prop where
  size : after.size = registry.size
  load : ∀ name, after.load? name = registry.load? name

/-- The registry after the classes of a list were put into it. Under a name that is listed it has
the last class of that name, and under any other name what it had. A name without dots under which
it has no class is a name of a class in `java.lang`. -/
structure Updated (registry : ClassRegistry) (classes : List LibraryClass) (after : ClassRegistry) :
    Prop where
  distinct : after.NamesDistinct
  listed : ∀ c, IsLastNamed classes c → after.load? c.name = some c
  others : ∀ name, (∀ c ∈ classes, c.name ≠ name) → after.get? name = registry.get? name
  load : ∀ name, (∀ c ∈ classes, c.name ≠ name) →
    ('.' ∈ name.toList ∨ registry.get? name ≠ none ∨ ∀ c ∈ classes, c.name ≠ "java.lang." ++ name) →
    after.load? name = registry.load? name

variable {registry after : ClassRegistry} {classes : List LibraryClass} {name : String}
  {c : LibraryClass}

theorem NamesDistinct.register (h : registry.NamesDistinct) (c : LibraryClass) :
    (registry.register c).NamesDistinct := by
  rw [NamesDistinct, ClassRegistry.register, List.map_cons, List.nodup_cons]
  refine ⟨by simp, ?_⟩
  exact h.sublist (List.filter_sublist.map _)

theorem get?_register_self (registry : ClassRegistry) (c : LibraryClass) :
    (registry.register c).get? c.name = some c := by
  simp [get?, register]

/-- Registering a class leaves other names alone. -/
theorem get?_register_of_ne (h : c.name ≠ name) :
    (registry.register c).get? name = registry.get? name := by
  have hkept (d : LibraryClass) (hd : d.name = name) : d.name ≠ c.name := hd ▸ h.symm
  simp only [get?, register, List.find?_cons_of_neg (p := fun d : LibraryClass => d.name = name)
    (by simpa using h), List.find?_filter]
  congr 1
  funext d
  by_cases hd : d.name = name
  · simp [hd, h.symm]
  · simp [hd]

def registerEach (registry : ClassRegistry) (classes : List LibraryClass) : ClassRegistry :=
  classes.foldl register registry

theorem registerEach_append (first second : List LibraryClass) :
    registry.registerEach (first ++ second) = (registry.registerEach first).registerEach second :=
  List.foldl_append

theorem NamesDistinct.registerEach (h : registry.NamesDistinct) (classes : List LibraryClass) :
    (registry.registerEach classes).NamesDistinct := by
  induction classes generalizing registry with
  | nil => exact h
  | cons c classes ih => exact ih (h.register c)

theorem get?_registerEach_of_not_listed (h : ∀ c ∈ classes, c.name ≠ name) :
    (registry.registerEach classes).get? name = registry.get? name := by
  induction classes generalizing registry with
  | nil => rfl
  | cons c classes ih =>
      rw [List.forall_mem_cons] at h
      exact (ih h.2).trans (get?_register_of_ne h.1)

/-- Of several classes of one name the last one stays. -/
theorem get?_registerEach_of_last (h : IsLastNamed classes c) :
    (registry.registerEach classes).get? c.name = some c := by
  obtain ⟨before, after, rfl, hafter⟩ := h
  rw [registerEach_append]
  exact (get?_registerEach_of_not_listed hafter).trans (get?_register_self _ c)

theorem exists_isLastNamed (h : ∃ d ∈ classes, d.name = name) :
    ∃ c, IsLastNamed classes c ∧ c.name = name := by
  induction classes with
  | nil => simp at h
  | cons first classes ih =>
      by_cases hlater : ∃ d ∈ classes, d.name = name
      · obtain ⟨c, ⟨before, after, rfl, hafter⟩, hname⟩ := ih hlater
        exact ⟨c, ⟨first :: before, after, rfl, hafter⟩, hname⟩
      · have hname : first.name = name := by
          obtain ⟨d, hd, hname⟩ := h
          rcases List.mem_cons.mp hd with rfl | hd
          · exact hname
          · exact absurd ⟨d, hd, hname⟩ hlater
        refine ⟨first, ⟨[], classes, rfl, fun d hd hsame => ?_⟩, hname⟩
        exact hlater ⟨d, hd, hsame.trans hname⟩

/-- Classes put in one after another are found as `Updated` says. -/
theorem updated_registerEach (h : registry.NamesDistinct) (classes : List LibraryClass) :
    registry.Updated classes (registry.registerEach classes) where
  distinct := h.registerEach classes
  listed := fun _ hlast => load?_of_get? (get?_registerEach_of_last hlast)
  others := fun _ hothers => get?_registerEach_of_not_listed hothers
  load := by
    intro name hothers hlang
    have hget : (registry.registerEach classes).get? name = registry.get? name :=
      get?_registerEach_of_not_listed hothers
    cases hname : registry.get? name with
    | some c => rw [load?_of_get? hname, load?_of_get? (hget.trans hname)]
    | none =>
        by_cases hdot : '.' ∈ name.toList
        · rw [load?_of_dotted hdot, load?_of_dotted hdot, hget]
        · rw [load?_of_simple hname hdot, load?_of_simple (hget.trans hname) hdot]
          apply get?_registerEach_of_not_listed
          exact (hlang.resolve_left hdot).resolve_left (not_not_intro hname)

theorem mem_names_iff : name ∈ registry.classes.map (·.name) ↔ registry.get? name ≠ none := by
  rw [ne_eq, get?_eq_none_iff]
  simp

theorem load?_congr (h : ∀ name, after.get? name = registry.get? name) (name : String) :
    after.load? name = registry.load? name := by
  simp only [load?, h]

theorem size_congr (hregistry : registry.NamesDistinct) (hafter : after.NamesDistinct)
    (h : ∀ name, after.get? name = registry.get? name) : after.size = registry.size := by
  have hnames : (after.classes.map (·.name)).Perm (registry.classes.map (·.name)) := by
    rw [List.perm_ext_iff_of_nodup hafter hregistry]
    intro name
    rw [mem_names_iff, mem_names_iff, h]
  simpa [size] using hnames.length_eq

/-- Classes that are put in change nothing if each of them, as far as it is not replaced by another
one of them, was there before. -/
theorem Updated.unchanged_iff (hregistry : registry.NamesDistinct)
    (h : registry.Updated classes after) :
    registry.Unchanged after ↔ ∀ c, IsLastNamed classes c → registry.get? c.name = some c := by
  constructor
  · intro hsame c hlast
    apply get?_name_of_load?
    rw [← hsame.load, h.listed c hlast]
  · intro hknown
    have hget (name : String) : after.get? name = registry.get? name := by
      by_cases hlisted : ∃ d ∈ classes, d.name = name
      · obtain ⟨c, hlast, rfl⟩ := exists_isLastNamed hlisted
        rw [hknown c hlast]
        exact get?_name_of_load? (h.listed c hlast)
      · exact h.others name fun d hd hname => hlisted ⟨d, hd, hname⟩
    exact ⟨size_congr hregistry h.distinct hget, load?_congr hget⟩

/-- The classes that a document lists, if it can be read. -/
def listed? (text : String) : Option (List LibraryClass) :=
  (Toml.parse text >>= decodeClasses).toOption

def listedIn? (tree : FileTree) (path : Path) : Option (List LibraryClass) :=
  (tree.readText path).toOption.bind listed?

/-- The classes in front of the first one without a name. -/
def named (classes : List LibraryClass) : List LibraryClass :=
  classes.takeWhile fun c => !Text.isBlank c.name

/-- What becomes of a registry when a document is loaded that lists the given classes or cannot be
read: how many classes it lists or why it failed, and the registry afterwards. -/
structure Loads (registry : ClassRegistry) (listed? : Option (List LibraryClass))
    (outcome : Except Hierarchy.Error Nat × ClassRegistry) : Prop where
  succeeds : (∃ count, outcome.1 = .ok count) ↔
    ∃ classes, listed? = some classes ∧ ∀ c ∈ classes, Text.isBlank c.name = false
  loaded : ∀ count, outcome.1 = .ok count →
    ∃ classes, listed? = some classes ∧ classes.length = count ∧ registry.Updated classes outcome.2
  failed : ∀ e, outcome.1 = .error e →
    registry.Updated (named (listed?.getD [])) outcome.2 ∧
      (registry.Unchanged outcome.2 ↔
        ∀ c, IsLastNamed (named (listed?.getD [])) c → registry.get? c.name = some c)

/-- Registering with the check for names is registering the classes in front of the first one
without a name. -/
theorem registerAll_eq (registry : ClassRegistry) (isNameless : String → Bool)
    (classes : List LibraryClass) :
    registry.registerAll isNameless classes =
      (registry.registerEach (classes.takeWhile fun c => !isNameless c.name),
        classes.all fun c => !isNameless c.name) := by
  induction classes generalizing registry with
  | nil => rfl
  | cons c classes ih =>
      rw [registerAll]
      by_cases hname : isNameless c.name = true
      · simp [hname, registerEach]
      · simp [hname, ih, registerEach]

/-- A document that cannot be read changes nothing. -/
theorem loads_of_error (hregistry : registry.NamesDistinct) (e : Hierarchy.Error) :
    registry.Loads none (.error e, registry) where
  succeeds := by simp
  loaded := by simp
  failed := by
    intro _ _
    have hupdated : registry.Updated [] registry := updated_registerEach hregistry []
    exact ⟨hupdated, hupdated.unchanged_iff hregistry⟩

theorem loadText_of_listed {text : String} (h : listed? text = some classes) :
    registry.loadText text =
      (if classes.all fun c => !Text.isBlank c.name then .ok classes.length
        else .error (.registry "class entry with empty name"),
      registry.registerEach (named classes)) := by
  rw [loadText, ok_of_toOption h]
  simp only [registerAll_eq]
  cases classes.all fun c => !Text.isBlank c.name <;> rfl

/-- A text that parses is loaded up to its first class without a name. -/
theorem loads_loadText (hregistry : registry.NamesDistinct) (text : String) :
    registry.Loads (listed? text) (registry.loadText text) := by
  cases hlisted : listed? text with
  | none =>
      cases hread : Toml.parse text >>= decodeClasses with
      | error fault =>
          rw [loadText, hread]
          exact loads_of_error hregistry _
      | ok classes =>
          rw [listed?, hread] at hlisted
          cases hlisted
  | some classes =>
      have hupdated := updated_registerEach hregistry (named classes)
      rw [loadText_of_listed hlisted]
      by_cases hnamed : ∀ c ∈ classes, Text.isBlank c.name = false
      · have hall : (classes.all fun c => !Text.isBlank c.name) = true := by simpa using hnamed
        have hfront : named classes = classes := by
          rw [named, List.takeWhile_eq_self_iff]
          simpa using hnamed
        rw [if_pos hall]
        refine ⟨⟨fun _ => ⟨classes, rfl, hnamed⟩, fun _ => ⟨_, rfl⟩⟩, ?_, by simp⟩
        intro count hcount
        rw [hfront] at hupdated ⊢
        exact ⟨classes, rfl, Except.ok.inj hcount, hupdated⟩
      · have hall : ¬ (classes.all fun c => !Text.isBlank c.name) = true := by simpa using hnamed
        rw [if_neg hall]
        refine ⟨?_, by simp, fun _ _ => ⟨hupdated, hupdated.unchanged_iff hregistry⟩⟩
        simpa using hnamed

theorem loads_loadFile (hregistry : registry.NamesDistinct) (tree : FileTree) (path : Path) :
    registry.Loads (listedIn? tree path) (registry.loadFile tree path) := by
  rw [listedIn?, loadFile]
  cases tree.readText path with
  | error cause => exact loads_of_error hregistry _
  | ok text => exact loads_loadText hregistry text

/-- A document is loaded up to its first class without a name. Loading succeeds exactly if the
document can be read and each of its classes has a name; then each name that is listed leads to the
last class listed under it, and all other names are as before. If loading fails, the classes in
front of the first one without a name have been put in, none if the document cannot be read. So a
failure leaves the registry as it was exactly if these classes were there before. -/
theorem loaded_up_to_nameless (registry : ClassRegistry) (hregistry : registry.NamesDistinct)
    (text : String) (tree : FileTree) (path : Path) :
    registry.Loads (listed? text) (registry.loadText text) ∧
      registry.Loads (listedIn? tree path) (registry.loadFile tree path) :=
  ⟨loads_loadText hregistry text, loads_loadFile hregistry tree path⟩

/-- A document whose second class has no name. -/
def namelessText : String :=
  "[[class]]\nname = \"org.lib.Base\"\n\n[[class]]\nname = \" \"\n"

theorem listed?_namelessText :
    listed? namelessText = some [{ name := "org.lib.Base" }, { name := " " }] := by
  decide +kernel

/-- A registry that has the first class of the document keeps what it has, although loading fails.
-/
theorem loaded_up_to_nameless_known :
    NamesDistinct ⟨[{ name := "org.lib.Base" }]⟩ ∧
      (∃ e, (loadText ⟨[{ name := "org.lib.Base" }]⟩ namelessText).1 = .error e) ∧
      Unchanged ⟨[{ name := "org.lib.Base" }]⟩
        (loadText ⟨[{ name := "org.lib.Base" }]⟩ namelessText).2 := by
  have hdistinct : NamesDistinct ⟨[{ name := "org.lib.Base" }]⟩ := List.nodup_singleton _
  obtain ⟨hloads, -⟩ := loaded_up_to_nameless _ hdistinct namelessText .empty ⟨"classes.toml"⟩
  rw [listed?_namelessText] at hloads
  have hfront : named [{ name := "org.lib.Base" }, { name := " " }] =
      [{ name := "org.lib.Base" }] := by
    decide
  cases houtcome : (loadText ⟨[{ name := "org.lib.Base" }]⟩ namelessText).1 with
  | ok count =>
      obtain ⟨_, hlisted, hnamed⟩ := hloads.succeeds.mp ⟨count, houtcome⟩
      cases hlisted
      have hblank : Text.isBlank " " = true := by decide
      rw [hnamed { name := " " } (by simp)] at hblank
      cases hblank
  | error e =>
      refine ⟨hdistinct, ⟨e, rfl⟩, (hloads.failed e houtcome).2.mpr ?_⟩
      rw [Option.getD_some, hfront]
      rintro c ⟨before, after, hsplit, -⟩
      have hc : c ∈ [({ name := "org.lib.Base" } : LibraryClass)] := by simp [hsplit]
      rw [List.mem_singleton.mp hc]
      decide

/-- A registry without classes has one after a document was rejected. -/
theorem rejected_document_leaves_class :
    (empty.loadText namelessText).1 = .error (.registry "class entry with empty name") ∧
      empty.load? "org.lib.Base" = none ∧
      (empty.loadText namelessText).2.load? "org.lib.Base" = some { name := "org.lib.Base" } := by
  rw [loadText_of_listed listed?_namelessText]
  decide

end WireMapper.Java.ClassRegistry
