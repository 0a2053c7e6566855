import Mathlib.Data.Set.Card
import WireMapper.Hierarchy.Cache
import WireMapper.Proofs.FileTree.Follow

/-!
A resolver with a cache over a whole run. Queries, changes of the files and clearings of the cache
come in any order. A pair of a class and a field that was answered since the cache was last cleared
keeps its first answer, whatever became of the files; every other query is answered from the files
as they are. The statements count and compare events alone and know nothing of how answers are kept.
-/

namespace WireMapper.Hierarchy

inductive Event where
  | query (className field : String)
  /-- The files change in some way. -/
  | change (files : FileTree → FileTree)
  | clear

namespace Event

/-- A file is written where a path leads, if that can be done. -/
def write (p : Path) (content : ByteArray) : Event :=
  .change fun files => (files.write p content).toOption.getD files

/-- What a path leads to is removed, a directory with everything below it. -/
def remove (p : Path) : Event :=
  .change fun files => ((files.place? p).toOption.map files.without).getD files

end Event

/-- A resolver without a cache: what it answers where the files are as given. -/
abbrev Plain := FileTree → String → String → Except Error Resolution

structure Session where
  files : FileTree
  cache : Cache

namespace Session

def reply (ask : Plain) (s : Session) (className field : String) : Except Error Resolution :=
  (s.cache.query (ask s.files) className field).1

def step (ask : Plain) (s : Session) : Event → Session
  | .query className field => { s with cache := (s.cache.query (ask s.files) className field).2 }
  | .change files => { s with files := files s.files }
  | .clear => { s with cache := s.cache.clear }

def after (ask : Plain) (start : FileTree) (past : List Event) : Session :=
  past.foldl (step ask) ⟨start, Cache.empty⟩

end Session

section Runs

variable (ask : Plain) (start : FileTree)

/-- After `before` a query was answered, and the cache was not cleared from then on. -/
def AnsweredAt (past before : List Event) (className field : String) : Prop :=
  (∃ rest, past = before ++ .query className field :: rest ∧ .clear ∉ rest) ∧
    ∃ answer, (Session.after ask start before).reply ask className field = .ok answer

def Answered (past : List Event) (className field : String) : Prop :=
  ∃ before, AnsweredAt ask start past before className field

/-- The query after `before` was the first one that was answered since the cache was last cleared.
-/
def FirstAnsweredAt (past before : List Event) (className field : String) : Prop :=
  AnsweredAt ask start past before className field ∧ ¬ Answered ask start before className field

/-- The event after `before` was a query for a pair that was answered already. -/
def ServedAt (past before : List Event) : Prop :=
  ∃ className field rest, past = before ++ .query className field :: rest ∧
    Answered ask start before className field

end Runs

namespace Cache

variable {cache : Cache} {ask : String → String → Except Error Resolution}
  {className field : String} {answer : Resolution}

theorem query_of_kept (h : cache.get? className field = some answer) :
    cache.query ask className field = (.ok answer, ⟨cache.answers, cache.hits + 1⟩) := by
  simp only [query, h]

theorem query_of_error {e : Error} (h : cache.get? className field = none)
    (hask : ask className field = .error e) :
    cache.query ask className field = (.error e, cache) := by
  simp only [query, h, hask]

theorem query_of_new (h : cache.get? className field = none)
    (hask : ask className field = .ok answer) :
    cache.query ask className field =
      (.ok answer, ⟨((className, field), answer) :: cache.answers, cache.hits⟩) := by
  simp only [query, h, hask]

theorem hits_of_not_kept (h : cache.get? className field = none) :
    (cache.query ask className field).2.hits = cache.hits := by
  cases hask : ask className field with
  | error e => rw [query_of_error h hask]
  | ok answer => rw [query_of_new h hask]

/-- The three ways in which a query goes: from what is kept, in vain, or with a new answer. -/
theorem query_cases (cache : Cache) (ask : String → String → Except Error Resolution)
    (className field : String) :
    (∃ answer, cache.get? className field = some answer ∧
      cache.query ask className field = (.ok answer, ⟨cache.answers, cache.hits + 1⟩)) ∨
    (∃ e, cache.get? className field = none ∧ ask className field = .error e ∧
      cache.query ask className field = (.error e, cache)) ∨
    ∃ answer, cache.get? className field = none ∧ ask className field = .ok answer ∧
      cache.query ask className field =
        (.ok answer, ⟨((className, field), answer) :: cache.answers, cache.hits⟩) := by
  cases hkept : cache.get? className field with
  | some answer => exact Or.inl ⟨answer, rfl, query_of_kept hkept⟩
  | none =>
      cases hask : ask className field with
      | error e => exact Or.inr (Or.inl ⟨e, rfl, rfl, query_of_error hkept hask⟩)
      | ok answer => exact Or.inr (Or.inr ⟨answer, rfl, rfl, query_of_new hkept hask⟩)

theorem get?_cons {answers : List ((String × String) × Resolution)} {hits : Nat}
    {pair : String × String} :
    (⟨(pair, answer) :: answers, hits⟩ : Cache).get? className field =
      if (className, field) = pair then some answer
      else (⟨answers, hits⟩ : Cache).get? className field := by
  unfold get?
  rw [List.lookup_cons]
  split <;> simp_all

theorem mem_pairs_iff :
    (className, field) ∈ cache.answers.map (·.1) ↔
      ∃ answer, cache.get? className field = some answer := by
  rw [← Option.isSome_iff_exists, get?]
  induction cache.answers with
  | nil => simp
  | cons entry rest ih =>
      obtain ⟨pair, answer⟩ := entry
      rw [List.lookup_cons]
      split <;> simp_all

/-- A query keeps what was kept, and an answer of its own where nothing was. -/
theorem get?_query_eq_some {queried part : String} :
    (cache.query ask queried part).2.get? className field = some answer ↔
      cache.get? className field = some answer ∨
        cache.get? className field = none ∧ queried = className ∧ part = field ∧
          ask className field = .ok answer := by
  rcases query_cases cache ask queried part with
    ⟨kept, hkept, hquery⟩ | ⟨e, hkept, hask, hquery⟩ | ⟨new, hkept, hask, hquery⟩
  · rw [hquery]
    constructor
    · exact Or.inl
    · rintro (h | ⟨hnone, rfl, rfl, _⟩)
      · exact h
      · cases hkept.symm.trans hnone
  · rw [hquery]
    constructor
    · exact Or.inl
    · rintro (h | ⟨_, rfl, rfl, h⟩)
      · exact h
      · cases hask.symm.trans h
  · rw [hquery, get?_cons]
    by_cases hpair : (className, field) = (queried, part)
    · obtain ⟨rfl, rfl⟩ := Prod.mk.inj hpair
      simp [hkept, hask]
    · rw [if_neg hpair]
      constructor
      · exact Or.inl
      · rintro (h | ⟨_, rfl, rfl, _⟩)
        · exact h
        · exact absurd rfl hpair

theorem get?_clear : cache.clear.get? className field = none := rfl

end Cache

section Events

variable {ask : Plain} {start : FileTree} {past before : List Event} {e : Event}
  {className field : String} {answer : Resolution}

theorem after_concat :
    Session.after ask start (past ++ [e]) = (Session.after ask start past).step ask e := by
  simp [Session.after]

/-- Where an event stands in a list with one more event at its end. -/
theorem concat_eq_append_cons_iff {other : Event} {rest : List Event} :
    past ++ [e] = before ++ other :: rest ↔
      (before = past ∧ e = other ∧ rest = []) ∨
        ∃ shorter, rest = shorter ++ [e] ∧ past = before ++ other :: shorter := by
  constructor
  · intro h
    rcases List.eq_nil_or_concat rest with rfl | ⟨shorter, last, rfl⟩
    · obtain ⟨hpast, he⟩ := List.append_inj' h rfl
      exact Or.inl ⟨hpast.symm, List.singleton_inj.mp he, rfl⟩
    · rw [List.concat_eq_append, ← List.cons_append, ← List.append_assoc] at h
      obtain ⟨hpast, he⟩ := List.append_inj' h rfl
      rw [List.concat_eq_append, List.singleton_inj.mp he]
      exact Or.inr ⟨shorter, rfl, hpast⟩
  · rintro (⟨rfl, rfl, rfl⟩ | ⟨shorter, rfl, rfl⟩)
    · rfl
    · simp

/-- One more event adds an answered query, or it is a clearing and takes all of them away. -/
theorem answeredAt_concat :
    AnsweredAt ask start (past ++ [e]) before className field ↔
      (before = past ∧ e = .query className field ∧
        ∃ answer, (Session.after ask start past).reply ask className field = .ok answer) ∨
      (e ≠ .clear ∧ AnsweredAt ask start past before className field) := by
  unfold AnsweredAt
  simp only [concat_eq_append_cons_iff]
  constructor
  · rintro ⟨⟨rest, ⟨rfl, he, rfl⟩ | ⟨shorter, rfl, hpast⟩, hclear⟩, hreply⟩
    · exact Or.inl ⟨rfl, he, hreply⟩
    · rw [List.mem_append, List.mem_singleton, not_or] at hclear
      exact Or.inr ⟨Ne.symm hclear.2, ⟨shorter, hpast, hclear.1⟩, hreply⟩
  · rintro (⟨rfl, he, hreply⟩ | ⟨he, ⟨rest, hpast, hclear⟩, hreply⟩)
    · exact ⟨⟨[], Or.inl ⟨rfl, he, rfl⟩, by simp⟩, hreply⟩
    · refine ⟨⟨rest ++ [e], Or.inr ⟨rest, rfl, hpast⟩, ?_⟩, hreply⟩
      rw [List.mem_append, List.mem_singleton, not_or]
      exact ⟨hclear, Ne.symm he⟩

theorem answered_concat :
    Answered ask start (past ++ [e]) className field ↔
      (e = .query className field ∧
        ∃ answer, (Session.after ask start past).reply ask className field = .ok answer) ∨
      (e ≠ .clear ∧ Answered ask start past className field) := by
  simp only [Answered, answeredAt_concat, exists_or, exists_eq_left, exists_and_left]

/-- A query at the end is the first answered one if none was answered before it. -/
theorem firstAnsweredAt_concat :
    FirstAnsweredAt ask start (past ++ [e]) before className field ↔
      (before = past ∧ e = .query className field ∧
        (∃ answer, (Session.after ask start past).reply ask className field = .ok answer) ∧
        ¬ Answered ask start past className field) ∨
      (e ≠ .clear ∧ FirstAnsweredAt ask start past before className field) := by
  unfold FirstAnsweredAt
  rw [answeredAt_concat]
  constructor
  · rintro ⟨⟨rfl, he, hreply⟩ | ⟨he, hanswered⟩, hfirst⟩
    · exact Or.inl ⟨rfl, he, hreply, hfirst⟩
    · exact Or.inr ⟨he, hanswered, hfirst⟩
  · rintro (⟨rfl, he, hreply, hfirst⟩ | ⟨he, hanswered, hfirst⟩)
    · exact ⟨Or.inl ⟨rfl, he, hreply⟩, hfirst⟩
    · exact ⟨Or.inr ⟨he, hanswered⟩, hfirst⟩

/-- Hits are counted over the whole run, so a clearing takes none away. -/
theorem servedAt_concat :
    ServedAt ask start (past ++ [e]) before ↔
      (before = past ∧ ∃ className field, e = .query className field ∧
        Answered ask start past className field) ∨
      ServedAt ask start past before := by
  unfold ServedAt
  simp only [concat_eq_append_cons_iff]
  constructor
  · rintro ⟨className, field, rest, ⟨rfl, he, rfl⟩ | ⟨shorter, rfl, hpast⟩, hanswered⟩
    · exact Or.inl ⟨rfl, className, field, he, hanswered⟩
    · exact Or.inr ⟨className, field, shorter, hpast, hanswered⟩
  · rintro (⟨rfl, className, field, he, hanswered⟩ | ⟨className, field, rest, hpast, hanswered⟩)
    · exact ⟨className, field, [], Or.inl ⟨rfl, he, rfl⟩, hanswered⟩
    · exact ⟨className, field, rest ++ [e], Or.inr ⟨rest, rfl, hpast⟩, hanswered⟩

theorem not_answered_nil : ¬ Answered ask start [] className field := by
  rintro ⟨before, ⟨rest, hpast, _⟩, _⟩
  simp at hpast

theorem not_servedAt_self : ¬ ServedAt ask start past past := by
  rintro ⟨className, field, rest, hpast, _⟩
  simpa using congrArg List.length hpast

end Events

section Kept

variable {ask : Plain} {start : FileTree} {past before : List Event} {className field : String}
  {answer : Resolution}

theorem reply_of_kept {s : Session} (h : s.cache.get? className field = some answer) :
    s.reply ask className field = .ok answer := by
  rw [Session.reply, Cache.query_of_kept h]

theorem reply_of_not_kept {s : Session} (h : s.cache.get? className field = none) :
    s.reply ask className field = ask s.files className field := by
  cases hask : ask s.files className field with
  | error e => rw [Session.reply, Cache.query_of_error h hask]
  | ok answer => rw [Session.reply, Cache.query_of_new h hask]

variable (ask start) in
/-- An answer is kept for a pair exactly if the pair was answered since the cache was last cleared.
-/
theorem kept_iff_answered (past : List Event) (className field : String) :
    (∃ answer, (Session.after ask start past).cache.get? className field = some answer) ↔
      Answered ask start past className field := by
  induction past using List.reverseRecOn generalizing className field with
  | nil => exact iff_of_false (by simp [Session.after, Cache.get?, Cache.empty]) not_answered_nil
  | append_singleton past e ih =>
      rw [after_concat, answered_concat]
      cases e with
      | change files => simpa [Session.step] using ih className field
      | clear => simp [Session.step, Cache.get?_clear]
      | query queried part =>
          simp only [Session.step, Cache.get?_query_eq_some, Event.query.injEq, ne_eq, reduceCtorEq,
            not_false_eq_true, true_and]
          rw [← ih className field]
          constructor
          · rintro ⟨answer, hkept | ⟨hnone, rfl, rfl, hask⟩⟩
            · exact Or.inr ⟨answer, hkept⟩
            · exact Or.inl ⟨⟨rfl, rfl⟩, answer, (reply_of_not_kept hnone).trans hask⟩
          · rintro (⟨⟨rfl, rfl⟩, answer, hreply⟩ | ⟨answer, hkept⟩)
            · cases hkept : (Session.after ask start past).cache.get? queried part with
              | some kept => exact ⟨kept, Or.inl rfl⟩
              | none =>
                  exact ⟨answer, Or.inr ⟨rfl, rfl, rfl,
                    (reply_of_not_kept hkept).symm.trans hreply⟩⟩
            · exact ⟨answer, Or.inl hkept⟩

theorem not_kept_of_not_answered (h : ¬ Answered ask start past className field) :
    (Session.after ask start past).cache.get? className field = none := by
  rw [← kept_iff_answered] at h
  exact Option.eq_none_iff_forall_ne_some.mpr fun answer hkept => h ⟨answer, hkept⟩

variable (ask start) in
/-- What is kept for a pair is the answer that the files gave at its first answered query. -/
theorem get?_eq_some_iff (past : List Event) (className field : String) (answer : Resolution) :
    (Session.after ask start past).cache.get? className field = some answer ↔
      ∃ before, FirstAnsweredAt ask start past before className field ∧
        ask (Session.after ask start before).files className field = .ok answer := by
  induction past using List.reverseRecOn with
  | nil =>
      refine iff_of_false (by simp [Session.after, Cache.get?, Cache.empty]) ?_
      rintro ⟨before, ⟨hanswered, _⟩, _⟩
      exact not_answered_nil ⟨before, hanswered⟩
  | append_singleton past e ih =>
      simp only [after_concat, firstAnsweredAt_concat]
      cases e with
      | change files => simpa [Session.step] using ih
      | clear => simp [Session.step, Cache.get?_clear]
      | query queried part =>
          simp only [Session.step, Cache.get?_query_eq_some, Event.query.injEq, ne_eq, reduceCtorEq,
            not_false_eq_true, true_and]
          rw [ih]
          constructor
          · rintro (⟨before, hfirst, hask⟩ | ⟨hnone, rfl, rfl, hask⟩)
            · exact ⟨before, Or.inr hfirst, hask⟩
            · refine ⟨past, Or.inl ⟨rfl, ⟨rfl, rfl⟩,
                ⟨answer, (reply_of_not_kept hnone).trans hask⟩, ?_⟩, hask⟩
              rw [← kept_iff_answered, hnone]
              simp
          · rintro ⟨before, ⟨rfl, ⟨rfl, rfl⟩, _, hanswered⟩ | hfirst, hask⟩
            · exact Or.inr ⟨not_kept_of_not_answered hanswered, rfl, rfl, hask⟩
            · exact Or.inl ⟨before, hfirst, hask⟩

/-- Where nothing is kept for a pair, the files are asked. -/
theorem reply_of_not_answered (h : ¬ Answered ask start past className field) :
    (Session.after ask start past).reply ask className field =
      ask (Session.after ask start past).files className field :=
  reply_of_not_kept (not_kept_of_not_answered h)

/-- The first answered query was answered from the files as they were, and its answer is repeated.
-/
theorem reply_of_firstAnsweredAt (h : FirstAnsweredAt ask start past before className field) :
    ∃ answer, ask (Session.after ask start before).files className field = .ok answer ∧
      (Session.after ask start past).reply ask className field = .ok answer := by
  obtain ⟨⟨_, answer, hreply⟩, hfirst⟩ := id h
  rw [reply_of_not_answered hfirst] at hreply
  exact ⟨answer, hreply, reply_of_kept ((get?_eq_some_iff ask start past _ _ answer).mpr
    ⟨before, h, hreply⟩)⟩

/-- A pair that was answered has a first answer. -/
theorem exists_firstAnsweredAt (h : Answered ask start past className field) :
    ∃ before, FirstAnsweredAt ask start past before className field := by
  obtain ⟨answer, hkept⟩ := (kept_iff_answered ask start past className field).mpr h
  obtain ⟨before, hfirst, _⟩ := (get?_eq_some_iff ask start past _ _ answer).mp hkept
  exact ⟨before, hfirst⟩

/-- A query in vain leaves the cache as it is. -/
theorem cache_of_error {e : Error}
    (h : (Session.after ask start past).reply ask className field = .error e) :
    (Session.after ask start (past ++ [.query className field])).cache =
      (Session.after ask start past).cache := by
  rw [after_concat, Session.step]
  rw [Session.reply] at h
  rcases Cache.query_cases (Session.after ask start past).cache
      (ask (Session.after ask start past).files) className field with
    ⟨_, _, hquery⟩ | ⟨_, _, _, hquery⟩ | ⟨_, _, _, hquery⟩
  · rw [hquery] at h
    cases h
  · rw [hquery]
  · rw [hquery] at h
    cases h

end Kept

section Counts

variable (ask : Plain) (start : FileTree)

/-- No pair has two answers in the cache. -/
theorem nodup_pairs (past : List Event) :
    ((Session.after ask start past).cache.answers.map (·.1)).Nodup := by
  induction past using List.reverseRecOn with
  | nil => simp [Session.after, Cache.empty]
  | append_singleton past e ih =>
      rw [after_concat]
      cases e with
      | change files => exact ih
      | clear => simp [Session.step, Cache.clear]
      | query queried part =>
          rcases Cache.query_cases (Session.after ask start past).cache
              (ask (Session.after ask start past).files) queried part with
            ⟨_, _, hquery⟩ | ⟨_, _, _, hquery⟩ | ⟨_, hnone, _, hquery⟩
          · rw [Session.step, hquery]
            exact ih
          · rw [Session.step, hquery]
            exact ih
          · rw [Session.step, hquery, List.map_cons, List.nodup_cons]
            refine ⟨?_, ih⟩
            rw [Cache.mem_pairs_iff, hnone]
            simp

/-- There are as many answers as pairs that were answered since the cache was last cleared. -/
theorem encard_answered (past : List Event) :
    {pair : String × String | Answered ask start past pair.1 pair.2}.encard =
      (Session.after ask start past).cache.size := by
  have hpairs : {pair : String × String | Answered ask start past pair.1 pair.2} =
      ((Session.after ask start past).cache.answers.map (·.1)).toFinset := by
    ext ⟨className, field⟩
    rw [Set.mem_ofPred_eq, ← kept_iff_answered, ← Cache.mem_pairs_iff]
    simp
  rw [hpairs, Set.encard_coe_eq_coe_finsetCard,
    List.toFinset_card_of_nodup (nodup_pairs ask start past), List.length_map, Cache.size]

/-- There are as many hits as queries for pairs that were answered before them. Clearing the cache
takes none of them back. -/
theorem encard_servedAt (past : List Event) :
    {before | ServedAt ask start past before}.encard =
      (Session.after ask start past).cache.hits := by
  induction past using List.reverseRecOn with
  | nil =>
      have hnone : {before | ServedAt ask start [] before} = ∅ := by
        ext before
        simp [ServedAt]
      rw [hnone, Set.encard_empty]
      rfl
  | append_singleton past e ih =>
      rw [after_concat]
      cases e with
      | change files => simpa [servedAt_concat, Session.step] using ih
      | clear => simpa [servedAt_concat, Session.step, Cache.clear] using ih
      | query queried part =>
          by_cases hanswered : Answered ask start past queried part
          · have hserved : {before | ServedAt ask start (past ++ [.query queried part]) before} =
                insert past {before | ServedAt ask start past before} := by
              ext before
              simp [servedAt_concat, hanswered]
            have hnew : past ∉ {before | ServedAt ask start past before} := not_servedAt_self
            obtain ⟨answer, hkept⟩ := (kept_iff_answered ask start past queried part).mpr hanswered
            rw [hserved, Set.encard_insert_of_notMem hnew, ih, Session.step,
              Cache.query_of_kept hkept]
            exact (Nat.cast_succ _).symm
          · have hserved : {before | ServedAt ask start (past ++ [.query queried part]) before} =
                {before | ServedAt ask start past before} := by
              ext before
              simp [servedAt_concat, hanswered]
            rw [hserved, ih, Session.step]
            exact congrArg _ (Cache.hits_of_not_kept (not_kept_of_not_answered hanswered)).symm

end Counts

/-- Kept answers are the first ones since the last clearing. Take any run of queries, changes of the
files and clearings, from an empty cache on, and any query after it. If its pair was answered since
the cache was last cleared, the reply is what the files gave at the first query that was answered
since then; if not, the reply is what the files give now, an answer or an error. What is kept for a
pair is that first answer and never an error, and a query in vain leaves the cache as it is. There
are as many answers in the cache as pairs that were answered since it was last cleared, and as many
hits as queries for such pairs in the whole run. -/
theorem cache_coherent (roots : SourceRoots) (libraries : LibraryLookup) (start : FileTree)
    (past : List Event) :
    let plain : Plain := resolveField roots libraries
    let run := Session.after plain start
    (∀ className field,
      (Answered plain start past className field →
        ∃ before, FirstAnsweredAt plain start past before className field) ∧
      (∀ before, FirstAnsweredAt plain start past before className field →
        ∃ answer, plain (run before).files className field = .ok answer ∧
          (run past).reply plain className field = .ok answer) ∧
      (¬ Answered plain start past className field →
        (run past).reply plain className field = plain (run past).files className field) ∧
      (∀ answer, (run past).cache.get? className field = some answer ↔
        ∃ before, FirstAnsweredAt plain start past before className field ∧
          plain (run before).files className field = .ok answer) ∧
      (∀ e, (run past).reply plain className field = .error e →
        (run (past ++ [.query className field])).cache = (run past).cache)) ∧
    {pair : String × String | Answered plain start past pair.1 pair.2}.encard =
      (run past).cache.size ∧
    {before | ServedAt plain start past before}.encard = (run past).cache.hits := by
  intro plain run
  refine ⟨?_, encard_answered plain start past, encard_servedAt plain start past⟩
  intro className field
  refine ⟨exists_firstAnsweredAt, ?_, reply_of_not_answered,
    get?_eq_some_iff plain start past className field, ?_⟩
  · intro before hfirst
    exact reply_of_firstAnsweredAt hfirst
  · intro e herror
    exact cache_of_error herror

def singleTree : FileTree where
  nodes := [(["app"], .directory), (["app", "A.java"], .file "class A { int id; }".toUTF8)]

def singleRoot : SourceRoots := ⟨[⟨"app"⟩]⟩

theorem single_answer :
    resolveField singleRoot (fun _ _ => .unloadable) singleTree "A" "id" =
      .ok ⟨"A", "id", .own ⟨"app/A.java"⟩⟩ := by
  have hbelow : singleTree.filesBelow ["app"] = [["A.java"]] :=
    List.mergeSort_of_pairwise (by decide)
  have hunder : singleTree.filesUnder ⟨"app"⟩ = [⟨"app/A.java"⟩] :=
    FileTree.filesUnder_eq rfl rfl hbelow
  have hsources : singleRoot.sources singleTree = [["app", "A.java"]] := by
    change (singleTree.filesBelow ["app"]).map _ ++ [] = _
    rw [hbelow]
    rfl
  simp only [resolveField, SourceRoots.findClass?, singleRoot, List.findSome?_cons, hunder, chain]
  rw [show SourceRoots.sources ⟨[⟨"app"⟩]⟩ singleTree = _ from hsources]
  decide +kernel

/-- A run in which the field is asked for, then taken out of the class, and the class removed. -/
def singleRun : List Event :=
  [.query "A" "id", .write ⟨"app/A.java"⟩ "class A {}".toUTF8, .remove ⟨"app/A.java"⟩]

/-- The answer stays when the class is gone, where a resolver without a cache finds nothing. -/
theorem cache_coherent_removed :
    let plain : Plain := resolveField singleRoot fun _ _ => .unloadable
    let run := Session.after plain singleTree singleRun
    plain run.files "A" "id" = .error (.notFound "A") ∧
      run.reply plain "A" "id" = .ok ⟨"A", "id", .own ⟨"app/A.java"⟩⟩ := by
  intro plain run
  constructor
  · have hfiles : run.files = { nodes := [(["app"], .directory)] } := by rfl
    have hbelow : run.files.filesBelow ["app"] = [] := by
      rw [hfiles]
      exact List.mergeSort_of_pairwise (by decide)
    have hunder : run.files.filesUnder ⟨"app"⟩ = [] := FileTree.filesUnder_eq rfl rfl hbelow
    change resolveField singleRoot (fun _ _ => .unloadable) run.files "A" "id" = _
    simp only [resolveField, SourceRoots.findClass?, singleRoot, List.findSome?_cons, hunder,
      List.findSome?_nil]
  · have hreply : (Session.after plain singleTree []).reply plain "A" "id" =
        .ok ⟨"A", "id", .own ⟨"app/A.java"⟩⟩ :=
      (reply_of_not_answered not_answered_nil).trans single_answer
    have hfirst : FirstAnsweredAt plain singleTree singleRun [] "A" "id" :=
      ⟨⟨⟨_, rfl, by simp [Event.write, Event.remove]⟩, _, hreply⟩, not_answered_nil⟩
    obtain ⟨answer, hanswer, hagain⟩ := ((cache_coherent singleRoot (fun _ _ => .unloadable)
      singleTree singleRun).1 "A" "id").2.1 [] hfirst
    rw [hagain]
    exact hanswer.symm.trans single_answer

end WireMapper.Hierarchy
