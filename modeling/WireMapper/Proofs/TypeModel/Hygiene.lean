import Mathlib.Data.List.Nodup
import WireMapper.Proofs.TypeModel.Names

/-!
The written form of conversions. A conversion of a type model is a context: its operand stands in
one place, in front of every lambda, and what is written around it is balanced and mentions no
variable. The lambdas of a conversion are conversions themselves, each with a parameter one deeper
than that of the lambda around it.
-/

namespace WireMapper.TypeModel

open Java Text

variable {depth : Nat}

/-- The lambdas of an expression inside `depth` others: each path of them has the parameters from
`depth` on, and the body of a lambda mentions the lambda's own one only. -/
def Layered (depth : Nat) (e : Expr) : Prop :=
  ∀ parameters parameter body, e.Encloses parameters (.lambda parameter body) →
    parameters ++ [parameter] = (List.range' depth (parameters.length + 1)).map lambdaParameter ∧
      ∀ name, IsParameter name → body.Mentions name → name = parameter

/-- Parameters that are numbered by depth differ along every path. -/
theorem Layered.hygienic {e : Expr} (h : Layered depth e) : e.Hygienic IsParameter := by
  intro parameters parameter body hencloses
  obtain ⟨hpath, hmentions⟩ := h parameters parameter body hencloses
  refine ⟨?_, hmentions⟩
  rw [hpath]
  exact List.Nodup.map lambdaParameter_injective List.nodup_range'

/-- An expression that is no lambda has the lambdas of its parts. -/
theorem layered_of_parts {e : Expr} (hlambda : ∀ parameter body, e ≠ .lambda parameter body)
    (h : ∀ part ∈ e.parts, Layered depth part) : Layered depth e := by
  intro parameters parameter body hencloses
  cases hencloses with
  | self => exact absurd rfl (hlambda parameter body)
  | part hpart hencloses => exact h _ hpart parameters parameter body hencloses
  | body => exact absurd rfl (hlambda _ _)

theorem layered_source (text : String) : Layered depth (.source text) :=
  layered_of_parts (by simp) (by simp [Expr.parts])

/-- A lambda that mentions only its own parameter adds one layer. -/
theorem layered_lambda {body : Expr} (h : Layered (depth + 1) body)
    (hmentions : ∀ name, IsParameter name → body.Mentions name → name = lambdaParameter depth) :
    Layered depth (.lambda (lambdaParameter depth) body) := by
  intro parameters parameter inner hencloses
  cases hencloses with
  | self => exact ⟨rfl, hmentions⟩
  | part hpart => cases hpart
  | @body _ _ _ parameters hencloses =>
      obtain ⟨hpath, hinner⟩ := h parameters parameter inner hencloses
      refine ⟨?_, hinner⟩
      rw [List.cons_append, hpath]
      rfl

/-- What can stand beside the operand of a conversion that lies inside `depth` lambdas. -/
structure Detached (depth : Nat) (e : Expr) : Prop where
  neutral : Neutral e.render
  layered : Layered depth e
  closed : ∀ name, IsParameter name → ¬ e.Mentions name

/-- An expression with its operand in one place, in front of which there is no arrow. -/
inductive Context (depth : Nat) : (Expr → Expr) → Prop where
  | operand : Context depth fun operand => operand
  | call {make : Expr → Expr} {method : String} {arguments : List Expr} (h : Context depth make)
      (hmethod : Plain method) (harguments : ∀ argument ∈ arguments, Detached depth argument) :
      Context depth fun operand => .call (make operand) method arguments
  | argument {make : Expr → Expr} {receiver : Expr} {method : String} (h : Context depth make)
      (hreceiver : Detached depth receiver) (harrow : '-' ∉ receiver.render.toList)
      (hmethod : Plain method) : Context depth fun operand => .call receiver method [make operand]
  | construct {make : Expr → Expr} {type : String} (h : Context depth make) (htype : Plain type)
      (hclosed : ∀ name, IsParameter name → ¬ MentionedIn name type) :
      Context depth fun operand => .construct type [make operand]

namespace Context

variable {make inner : Expr → Expr} {operand : Expr}

/-- The operand of a context may be another context. -/
theorem comp (h : Context depth make) (hinner : Context depth inner) :
    Context depth fun operand => make (inner operand) := by
  induction h with
  | operand => exact hinner
  | call _ hmethod harguments ih => exact ih.call hmethod harguments
  | argument _ hreceiver harrow hmethod ih => exact ih.argument hreceiver harrow hmethod
  | construct _ htype hclosed ih => exact ih.construct htype hclosed

theorem neutral (h : Context depth make) (hoperand : Neutral operand.render) :
    Neutral (make operand).render := by
  induction h with
  | operand => exact hoperand
  | call _ hmethod harguments ih =>
      exact neutral_call ih hmethod fun argument hargument =>
        (harguments argument hargument).neutral
  | argument _ hreceiver _ hmethod ih =>
      exact neutral_call hreceiver.neutral hmethod (List.forall_mem_singleton.mpr ih)
  | construct _ htype _ ih => exact neutral_construct htype (List.forall_mem_singleton.mpr ih)

/-- A context adds no lambdas around its operand. -/
theorem layered (h : Context depth make) (hoperand : Layered depth operand) :
    Layered depth (make operand) := by
  induction h with
  | operand => exact hoperand
  | call _ _ harguments ih =>
      refine layered_of_parts (by simp) (List.forall_mem_cons.mpr ⟨ih, ?_⟩)
      exact fun argument hargument => (harguments argument hargument).layered
  | argument _ hreceiver _ _ ih =>
      refine layered_of_parts (by simp) (List.forall_mem_cons.mpr ⟨hreceiver.layered, ?_⟩)
      exact List.forall_mem_singleton.mpr ih
  | construct _ _ _ ih => exact layered_of_parts (by simp) (List.forall_mem_singleton.mpr ih)

/-- What a context mentions is mentioned by its operand. -/
theorem mentions (h : Context depth make) {name : String} (hname : IsParameter name)
    (hmention : (make operand).Mentions name) : operand.Mentions name := by
  induction h with
  | operand => exact hmention
  | call _ _ harguments ih =>
      rcases hmention.of_call with hreceiver | ⟨argument, hargument, hmention⟩
      · exact ih hreceiver
      · exact absurd hmention ((harguments argument hargument).closed name hname)
  | argument _ hreceiver _ _ ih =>
      rcases hmention.of_call with hmention | ⟨argument, hargument, hmention⟩
      · exact absurd hmention (hreceiver.closed name hname)
      · obtain rfl := List.mem_singleton.mp hargument
        exact ih hmention
  | construct _ _ hclosed ih =>
      rcases hmention.of_construct with hmention | ⟨argument, hargument, hmention⟩
      · exact absurd hmention (hclosed name hname)
      · obtain rfl := List.mem_singleton.mp hargument
        exact ih hmention

/-- The operand is written between two texts, and before it there is no part of an arrow. -/
theorem written (h : Context depth make) : ∃ before after, '-' ∉ before.toList ∧
    ∀ operand, (make operand).render = before ++ operand.render ++ after := by
  induction h with
  | operand => exact ⟨"", "", by simp, by simp⟩
  | @call _ method arguments _ _ _ ih =>
      obtain ⟨before, after, harrow, hmake⟩ := ih
      refine ⟨before, after ++ "." ++ method ++ "(" ++ Expr.renderArguments arguments ++ ")",
        harrow, fun operand => ?_⟩
      rw [Expr.render, hmake]
      simp only [String.append_assoc]
  | @argument _ receiver method _ _ hreceiver hmethod ih =>
      obtain ⟨before, after, harrow, hmake⟩ := ih
      refine ⟨receiver.render ++ "." ++ method ++ "(" ++ before, after ++ ")", ?_,
        fun operand => ?_⟩
      · have hplain : '-' ∉ method.toList := hmethod '-' (by decide)
        simp [hreceiver, hplain, harrow]
      · rw [Expr.render, Expr.renderArguments, hmake]
        simp only [String.append_assoc]
  | @construct _ type _ htype _ ih =>
      obtain ⟨before, after, harrow, hmake⟩ := ih
      refine ⟨"new " ++ type ++ "(" ++ before, after ++ ")", ?_, fun operand => ?_⟩
      · have hplain : '-' ∉ type.toList := htype '-' (by decide)
        simp [hplain, harrow]
      · rw [Expr.render, Expr.renderArguments, hmake]
        simp only [String.append_assoc]

end Context

/-- The parameter of the lambda inside `depth` others, or what is read from it. -/
structure OfParameter (depth : Nat) (e : Expr) : Prop where
  neutral : Neutral e.render
  layered : Layered (depth + 1) e
  mentions : ∀ name, IsParameter name → e.Mentions name → name = lambdaParameter depth

theorem ofParameter_source (depth : Nat) : OfParameter depth (.source (lambdaParameter depth)) where
  neutral := (isIdentifier_lambdaParameter depth).plain.neutral
  layered := layered_source _
  mentions _ _ h := h.of_source.eq_of_isIdentifier (isIdentifier_lambdaParameter depth)

theorem OfParameter.call {e : Expr} {method : String} (h : OfParameter depth e)
    (hmethod : Plain method) : OfParameter depth (.call e method []) where
  neutral := neutral_call h.neutral hmethod (by simp)
  layered := layered_of_parts (by simp) (List.forall_mem_cons.mpr ⟨h.layered, by simp⟩)
  mentions name hname hmention := by
    rcases hmention.of_call with hmention | ⟨_, hnone, -⟩
    · exact h.mentions name hname hmention
    · cases hnone

/-- A lambda that converts what it reads from its parameter mentions nothing from outside. -/
theorem detached_lambda {make : Expr → Expr} {operand : Expr} (h : Context (depth + 1) make)
    (hoperand : OfParameter depth operand) :
    Detached depth (.lambda (lambdaParameter depth) (make operand)) where
  neutral := neutral_lambda (isIdentifier_lambdaParameter depth).plain (h.neutral hoperand.neutral)
  layered := layered_lambda (h.layered hoperand.layered) fun name hname hmention =>
    hoperand.mentions name hname (h.mentions hname hmention)
  closed name hname hmention := by
    obtain ⟨hfree, hmention⟩ := hmention.of_lambda
    exact hfree (hoperand.mentions name hname (h.mentions hname hmention))

theorem detached_source {text : String} (hplain : Plain text)
    (hclosed : ∀ name, IsParameter name → ¬ MentionedIn name text) :
    Detached depth (.source text) where
  neutral := hplain.neutral
  layered := layered_source text
  closed name hname hmention := hclosed name hname hmention.of_source

theorem IsTypeName.detached {type : String} (h : IsTypeName type) :
    Detached depth (.source type) :=
  detached_source h.qualified.plain fun _ => h.not_mentionedIn

theorem Detached.call {receiver : Expr} {method : String} {arguments : List Expr}
    (h : Detached depth receiver) (hmethod : Plain method)
    (harguments : ∀ argument ∈ arguments, Detached depth argument) :
    Detached depth (.call receiver method arguments) where
  neutral := neutral_call h.neutral hmethod fun argument hargument =>
    (harguments argument hargument).neutral
  layered := layered_of_parts (by simp) (List.forall_mem_cons.mpr ⟨h.layered,
    fun argument hargument => (harguments argument hargument).layered⟩)
  closed name hname hmention := by
    rcases hmention.of_call with hmention | ⟨argument, hargument, hmention⟩
    · exact h.closed name hname hmention
    · exact (harguments argument hargument).closed name hname hmention

theorem detached_collector {method : String} {arguments : List Expr} (hmethod : Plain method)
    (harguments : ∀ argument ∈ arguments, Detached depth argument) :
    Detached depth (collector method arguments) :=
  (isTypeName_of_head (by decide) (by decide)).detached.call hmethod harguments

section

variable {make : Expr → Expr} (h : Context depth make)

include h

theorem Context.get {method : String} (hmethod : Plain method) :
    Context depth fun operand => .call (make operand) method [] :=
  h.call hmethod (by simp)

theorem Context.domainStream (container : RepeatedContainer) :
    Context depth fun operand => TypeModel.domainStream container (make operand) := by
  cases container with
  | stream => exact h
  | list | set | sortedSet | immutableList | immutableSet => exact h.get (by decide)

theorem Context.mapEntries {key value : Expr} (hkey : Detached depth key)
    (hvalue : Detached depth value) :
    Context depth fun operand => TypeModel.mapEntries (make operand) key value := by
  have hentries : ∀ argument ∈ [key, value], Detached depth argument :=
    List.forall_mem_cons.mpr ⟨hkey, List.forall_mem_singleton.mpr hvalue⟩
  have hstream := (h.get (by decide : Plain "entrySet")).get (by decide : Plain "stream")
  exact hstream.call (by decide)
    (List.forall_mem_singleton.mpr (detached_collector (by decide) hentries))

theorem Context.ofList (container : RepeatedContainer) :
    Context depth fun operand => TypeModel.ofList container (make operand) := by
  have hcopy {type : String} (htype : Plain type) (hletter : 'i' ∉ type.toList) :
      Context depth fun operand => .construct type [make operand] :=
    h.construct htype fun _ hname => not_mentionedIn_of_not_mem hname hletter
  have hcopyOf {type : String} (htype : IsTypeName type) :
      Context depth fun operand => .call (.source type) "copyOf" [make operand] :=
    h.argument htype.detached (htype.qualified.plain '-' (by decide)) (by decide)
  cases container with
  | list => exact h
  | set => exact hcopy (by decide) (by decide)
  | sortedSet => exact hcopy (by decide) (by decide)
  | immutableList => exact hcopyOf (isTypeName_of_head (by decide) (by decide))
  | immutableSet => exact hcopyOf (isTypeName_of_head (by decide) (by decide))
  | stream => exact h.get (by decide)

theorem Context.ofStream (container : RepeatedContainer) :
    Context depth fun operand => TypeModel.ofStream container (make operand) := by
  have hcollect {method : String} {arguments : List Expr} (hmethod : Plain method)
      (harguments : ∀ argument ∈ arguments, Detached depth argument) :
      Context depth fun operand =>
        .call (make operand) "collect" [collector method arguments] :=
    h.call (by decide) (List.forall_mem_singleton.mpr (detached_collector hmethod harguments))
  cases container with
  | list | immutableList => exact h.get (by decide)
  | set => exact hcollect (by decide) (by simp)
  | sortedSet =>
      have hconstructor : Detached depth (.source "TreeSet::new") :=
        detached_source (by decide) fun _ hname => not_mentionedIn_of_not_mem hname (by decide)
      exact hcollect (by decide) (List.forall_mem_singleton.mpr hconstructor)
  | immutableSet => exact hcollect (by decide) (by simp)
  | stream => exact h

end

/-- Two lambdas over the entries of a map, one for the keys and one for the values. -/
theorem context_entries {makeKey makeValue : Expr → Expr} (hkey : Context (depth + 1) makeKey)
    (hvalue : Context (depth + 1) makeValue) : Context depth fun operand =>
      TypeModel.mapEntries operand
        (.lambda (lambdaParameter depth)
          (makeKey (.call (.source (lambdaParameter depth)) "getKey" [])))
        (.lambda (lambdaParameter depth)
          (makeValue (.call (.source (lambdaParameter depth)) "getValue" []))) := by
  have hentry {method : String} (hmethod : Plain method) :
      OfParameter depth (.call (.source (lambdaParameter depth)) method []) :=
    (ofParameter_source depth).call hmethod
  exact Context.operand.mapEntries (detached_lambda hkey (hentry (by decide)))
    (detached_lambda hvalue (hentry (by decide)))

/-- The conversion towards the wire is a context, and so are those in its lambdas, one deeper. -/
theorem context_toWireExpr {model : TypeModel} (h : model.WellNamed) (depth : Nat) :
    Context depth fun operand => model.toWireExpr operand depth := by
  induction model generalizing depth with
  | scalar s boxed => exact .operand
  | enum wireType domainType => exact Context.operand.get (by decide)
  | message wireType domainType => exact Context.operand.get (by decide)
  | repeated element container ih =>
      simp only [toWireExpr]
      split
      · split
        · exact Context.operand.get (by decide)
        · exact .operand
      · have hlambda := detached_lambda (ih h (depth + 1)) (ofParameter_source depth)
        have hmap := (Context.operand.domainStream container).call (by decide : Plain "map")
          (List.forall_mem_singleton.mpr hlambda)
        exact hmap.get (by decide)
  | map key value hkey hvalue =>
      obtain ⟨hkeyNames, hvalueNames⟩ := h
      simp only [toWireExpr]
      split
      · exact .operand
      · exact context_entries (hkey hkeyNames (depth + 1)) (hvalue hvalueNames (depth + 1))
  | unfolded wrapperType innerField inner ih =>
      obtain ⟨hwrapper, hfield, hinner⟩ := h
      have hbuilder : Detached depth (.call (.source wrapperType) "newBuilder" []) :=
        hwrapper.detached.call (by decide) (by simp)
      have harrow : '-' ∉ (Expr.call (.source wrapperType) "newBuilder" []).render.toList := by
        have hplain : '-' ∉ wrapperType.toList := hwrapper.qualified.plain '-' (by decide)
        simp [Expr.render, Expr.renderArguments, hplain]
      have hset := (ih hinner depth).argument hbuilder harrow (plain_setter inner hfield)
      exact hset.get (by decide)

theorem IsTypeName.context_fromGrpc {domainType : String} (h : IsTypeName domainType) :
    Context depth fun operand => .call (.source domainType) "fromGrpc" [operand] :=
  Context.operand.argument h.detached (h.qualified.plain '-' (by decide)) (by decide)

/-- The conversion from the wire is a context at every depth. -/
theorem context_fromWireExpr {model : TypeModel} (h : model.WellNamed) (depth : Nat) :
    Context depth fun operand => model.fromWireExpr operand depth := by
  induction model generalizing depth with
  | scalar s boxed => exact .operand
  | enum wireType domainType => exact h.2.context_fromGrpc
  | message wireType domainType => exact h.2.context_fromGrpc
  | repeated element container ih =>
      simp only [fromWireExpr]
      split
      · exact Context.operand.ofList container
      · have hlambda := detached_lambda (ih h (depth + 1)) (ofParameter_source depth)
        have hstream : Context depth fun operand => streamOf operand :=
          Context.operand.get (by decide)
        have hmap := hstream.call (by decide : Plain "map") (List.forall_mem_singleton.mpr hlambda)
        exact hmap.ofStream container
  | map key value hkey hvalue =>
      obtain ⟨hkeyNames, hvalueNames⟩ := h
      simp only [fromWireExpr]
      split
      · exact .operand
      · exact context_entries (hkey hkeyNames (depth + 1)) (hvalue hvalueNames (depth + 1))
  | unfolded wrapperType innerField inner ih =>
      obtain ⟨-, hfield, hinner⟩ := h
      -- Unfolding adds no lambda: the conversion inside is at the same depth and reads the getter.
      exact (ih hinner depth).comp (Context.operand.get (plain_getter inner hfield))

/-- A conversion writes its operand between two texts. No arrow stands in front of the operand, and
the brackets of the two texts are balanced. -/
structure WrittenAround (conversion : String → String) (before after : String) : Prop where
  operand : ∀ value, conversion value = before ++ value ++ after
  arrow : ¬ ['-', '>'] <:+: before.toList
  brackets : Balanced (before ++ after)

/-- What is written before and after the operand does not depend on it. -/
theorem Context.writtenAround {make : Expr → Expr} (h : Context 0 make) :
    ∃ before after, WrittenAround (fun value => (make (.source value)).render) before after := by
  obtain ⟨before, after, harrow, hmake⟩ := h.written
  refine ⟨before, after, fun value => hmake (.source value), ?_, ?_⟩
  · exact fun hinside => harrow (hinside.subset List.mem_cons_self)
  · have hneutral : Neutral (make (.source "")).render := h.neutral fun _ => rfl
    rw [hmake, Expr.render, String.append_empty] at hneutral
    exact hneutral.balanced

/-- Conversions are linear, balanced and hygienic. Each conversion of a well named model is written
around its operand by two texts that do not depend on it. There is no arrow in front of the operand,
so it is evaluated once and in no lambda, and every bracket closes the last one that was opened.
Inside, lambdas within one another have different parameters, and the body of a lambda mentions no
parameter of a conversion other than its own. -/
theorem conversions_hygienic {model : TypeModel} (h : model.WellNamed) :
    (∃ before after, WrittenAround model.toWire before after) ∧
    (∃ before after, WrittenAround model.fromWire before after) ∧
    (∀ value, (model.toWireExpr (.source value) 0).Hygienic IsParameter) ∧
    ∀ access, (model.fromWireExpr (.source access) 0).Hygienic IsParameter :=
  ⟨(context_toWireExpr h 0).writtenAround, (context_fromWireExpr h 0).writtenAround,
    fun value => ((context_toWireExpr h 0).layered (layered_source value)).hygienic,
    fun access => ((context_fromWireExpr h 0).layered (layered_source access)).hygienic⟩

def palette : TypeModel :=
  map (enum "WireColor" "Color")
    (repeated (unfolded "Rack.Slot" "part_held" (message "WirePart" "Part")) .set)

theorem conversions_hygienic_palette :
    palette.WellNamed ∧
    (∃ before after, WrittenAround palette.toWire before after) ∧
    ∃ body, (palette.toWireExpr (.source "colors") 0).Encloses ["it"] (.lambda "it1" body) ∧
      ∀ name, IsParameter name → body.Mentions name → name = "it1" := by
  have hnamed : palette.WellNamed :=
    ⟨⟨isTypeName_of_head (by decide) (by decide), isTypeName_of_head (by decide) (by decide)⟩,
      isTypeName_of_head (by decide) (by decide), by decide,
      isTypeName_of_head (by decide) (by decide), isTypeName_of_head (by decide) (by decide)⟩
  obtain ⟨hwritten, -, hhygienic, -⟩ := conversions_hygienic hnamed
  -- The second lambda over the entries holds the lambda over the parts.
  have hinside : (palette.toWireExpr (.source "colors") 0).Encloses ["it"] (.lambda "it1" _) :=
    .part (.tail _ (.head _)) (.part (.tail _ (.tail _ (.head _)))
      (.body (.part (.head _) (.part (.tail _ (.head _)) .self))))
  exact ⟨hnamed, hwritten, _, hinside, (hhygienic _ _ _ _ hinside).2⟩

end WireMapper.TypeModel
