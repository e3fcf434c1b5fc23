import Telemetry.Proofs.Field.Conformity
import Telemetry.Proofs.Field.Recall

/-!
# Where a traversal stops

A traversal reads the first segment from the source and goes on along links: of
the object that the link before it gave, the next segment is read through the
accessor that the cache has for it by then. It arrives exactly if there are
links for all segments, and otherwise it stops at the first segment that has
none and says which it is and why (`Source.traverse_links`). The cache comes to
know that segment, if it was asked of an object, and those before it, and nothing
else. Over objects whose getters their types determine, going along a path in
two parts is going along it in one, whichever caches answer.
-/

namespace Telemetry.Field

variable {σ τ : Type} {cache cache' : Cache} {v last : Value} {links : List Link}

-- ---------------------------------------------------------------------------
-- Links
-- ---------------------------------------------------------------------------

structure Link where
  target : Object
  segment : String

def segmentsOf (links : List Link) : List String :=
  links.map (·.segment)

def Cache.after (cache : Cache) (links : List Link) : Cache :=
  links.foldl (fun cache link => (cache.resolve link.target link.segment).2) cache

/-- Each link is read from what the one before it gave, the first from the
first of the two values; the last one gives the second of them. -/
inductive Chain : Cache → Value → List Link → Value → Prop
  | nil {cache : Cache} {v : Value} : Chain cache v [] v
  | cons {cache : Cache} {target : Object} {segment : String} {accessor : Accessor}
    {next last : Value} {links : List Link}
    (known : (cache.resolve target segment).1 = some accessor)
    (read : target.call accessor.slot = .value next)
    (later : Chain (cache.resolve target segment).2 next links last) :
    Chain cache (.object target) (⟨target, segment⟩ :: links) last

/-- Why there is no link from a value by a segment. -/
inductive Broken (cache : Cache) (segment : String) : Value → Failure → Prop
  | notObject {v : Value} (scalar : ∀ target, v ≠ .object target) :
    Broken cache segment v (.pathMiss segment "parent is not an object")
  | noAccessor {target : Object} (unknown : (cache.resolve target segment).1 = none) :
    Broken cache segment (.object target) (.noAccessor target.typeName segment)
  | noValue {target : Object} {accessor : Accessor}
    (known : (cache.resolve target segment).1 = some accessor)
    (nothing : ∀ next, target.call accessor.slot ≠ .value next) :
    Broken cache segment (.object target) (.pathMiss segment "no value")

theorem Reading.toOption_eq_some_iff {reading : Reading} :
    reading.toOption = some v ↔ reading = .value v := by
  cases reading <;> simp [Reading.toOption]

theorem exists_link_or_broken (cache : Cache) (v : Value) (segment : String) :
    (∃ target accessor next, v = .object target ∧
      (cache.resolve target segment).1 = some accessor ∧
        target.call accessor.slot = .value next) ∨
      ∃ failure, Broken cache segment v failure := by
  cases v with
  | object target =>
    cases hknown : (cache.resolve target segment).1 with
    | none => exact .inr ⟨_, .noAccessor hknown⟩
    | some accessor =>
      cases hread : target.call accessor.slot with
      | value next => exact .inl ⟨target, accessor, next, rfl, hknown, hread⟩
      | absent => exact .inr ⟨_, .noValue hknown (by simp [hread])⟩
      | fault f => exact .inr ⟨_, .noValue hknown (by simp [hread])⟩
  | _ => exact .inr ⟨_, .notObject (by simp)⟩

-- ---------------------------------------------------------------------------
-- A walk along links
-- ---------------------------------------------------------------------------

theorem walk_link {target : Object} {segment : String} {accessor : Accessor} {next : Value}
    (known : (cache.resolve target segment).1 = some accessor)
    (read : target.call accessor.slot = .value next) (rest : List String) :
    walk cache (.object target) (segment :: rest) =
      walk (cache.resolve target segment).2 next rest := by
  have hinvoke : accessor.invoke target = some next :=
    Reading.toOption_eq_some_iff.mpr read
  rw [walk]
  rcases hresolve : cache.resolve target segment with ⟨found, later⟩
  rw [hresolve] at known
  subst known
  simp only [hinvoke]

theorem Broken.walk {segment : String} {failure : Failure} (h : Broken cache segment v failure)
    (rest : List String) :
    (walk cache v (segment :: rest)).1 = .error failure ∧
      (walk cache v (segment :: rest)).2 = match v with
        | .object target => (cache.resolve target segment).2
        | _ => cache := by
  cases h with
  | notObject scalar =>
    cases v with
    | object target => exact absurd rfl (scalar target)
    | _ => exact ⟨rfl, rfl⟩
  | @noAccessor target unknown =>
    rw [Field.walk]
    rcases hresolve : cache.resolve target segment with ⟨found, later⟩
    rw [hresolve] at unknown
    subst unknown
    exact ⟨rfl, by simp only [hresolve]⟩
  | @noValue target accessor known nothing =>
    have hinvoke : accessor.invoke target = none := by
      refine Option.eq_none_iff_forall_ne_some.mpr fun next hnext => ?_
      exact nothing next (Reading.toOption_eq_some_iff.mp hnext)
    rw [Field.walk]
    rcases hresolve : cache.resolve target segment with ⟨found, later⟩
    rw [hresolve] at known
    subst known
    simp only [hinvoke, hresolve]
    exact ⟨trivial, trivial⟩

/-- A walk goes along a chain of links and on from there. -/
theorem Chain.walk (h : Chain cache v links last) (rest : List String) :
    walk cache v (segmentsOf links ++ rest) = walk (cache.after links) last rest := by
  induction h with
  | nil => rfl
  | cons known read later ih => exact (walk_link known read _).trans ih

/-- Along every path there are links up to where it ends or a segment has none. -/
theorem exists_chain (cache : Cache) (v : Value) (path : List String) :
    ∃ links last left, Chain cache v links last ∧ path = segmentsOf links ++ left ∧
      ∀ segment later, left = segment :: later →
        ∃ failure, Broken (cache.after links) segment last failure := by
  induction path generalizing cache v with
  | nil => exact ⟨[], v, [], .nil, rfl, by simp⟩
  | cons segment rest ih =>
    rcases exists_link_or_broken cache v segment with
      ⟨target, accessor, next, rfl, hknown, hread⟩ | ⟨failure, hbroken⟩
    · obtain ⟨links, last, left, hchain, rfl, hleft⟩ := ih (cache.resolve target segment).2 next
      exact ⟨⟨target, segment⟩ :: links, last, left, .cons hknown hread hchain, rfl, hleft⟩
    · refine ⟨[], v, segment :: rest, .nil, rfl, ?_⟩
      rintro _ _ ⟨⟩
      exact ⟨failure, hbroken⟩

theorem walk_eq_ok_iff {path : List String} :
    (walk cache v path).1 = .ok last ↔
      ∃ links, Chain cache v links last ∧ segmentsOf links = path := by
  constructor
  · intro h
    obtain ⟨links, reached, left, hchain, rfl, hleft⟩ := exists_chain cache v path
    rw [hchain.walk] at h
    cases left with
    | nil =>
      cases h
      exact ⟨links, hchain, (List.append_nil _).symm⟩
    | cons segment later =>
      obtain ⟨failure, hbroken⟩ := hleft segment later rfl
      rw [(hbroken.walk later).1] at h
      cases h
  · rintro ⟨links, hchain, rfl⟩
    have hwalk := hchain.walk []
    rw [List.append_nil] at hwalk
    rw [hwalk]
    rfl

theorem walk_eq_error_iff {path : List String} {failure : Failure} :
    (walk cache v path).1 = .error failure ↔
      ∃ links last segment later, Chain cache v links last ∧
        segmentsOf links ++ segment :: later = path ∧
        Broken (cache.after links) segment last failure := by
  constructor
  · intro h
    obtain ⟨links, last, left, hchain, rfl, hleft⟩ := exists_chain cache v path
    rw [hchain.walk] at h
    cases left with
    | nil => cases h
    | cons segment later =>
      obtain ⟨other, hbroken⟩ := hleft segment later rfl
      rw [(hbroken.walk later).1] at h
      cases h
      exact ⟨links, last, segment, later, hchain, rfl, hbroken⟩
  · rintro ⟨links, last, segment, later, hchain, rfl, hbroken⟩
    rw [hchain.walk]
    exact (hbroken.walk later).1

-- ---------------------------------------------------------------------------
-- What the cache comes to know
-- ---------------------------------------------------------------------------

theorem Cache.contains_resolve {target : Object} {segment : String} {type : TypeKey}
    {field : String} :
    (cache.resolve target segment).2.contains type field = true ↔
      cache.contains type field = true ∨ target.type = type ∧ segment = field := by
  simp only [contains, find?_resolve, Prod.mk.injEq]
  split <;> simp_all

theorem Cache.contains_after {type : TypeKey} {field : String} :
    (cache.after links).contains type field = true ↔
      cache.contains type field = true ∨
        ∃ link ∈ links, link.target.type = type ∧ link.segment = field := by
  induction links generalizing cache with
  | nil => simp [after]
  | cons link links ih =>
    refine (@ih (cache.resolve link.target link.segment).2).trans ?_
    rw [contains_resolve, List.exists_mem_cons_iff, or_assoc]

theorem Chain.before {first later : List Link} {link : Link}
    (h : Chain cache v (first ++ link :: later) last) :
    Chain cache v first (.object link.target) := by
  induction first generalizing cache v with
  | nil =>
    cases h
    exact .nil
  | cons head first ih =>
    cases h with
    | cons known read later => exact .cons known read (ih later)

/-- A segment is asked of an object that the segments before it lead to. -/
def Asks (cache : Cache) (v : Value) (path : List String) (type : TypeKey) (field : String) :
    Prop :=
  ∃ links target later, Chain cache v links (.object target) ∧
    segmentsOf links ++ field :: later = path ∧ target.type = type

theorem contains_walk {path : List String} {type : TypeKey} {field : String} :
    (walk cache v path).2.contains type field = true ↔
      cache.contains type field = true ∨ Asks cache v path type field := by
  constructor
  · intro h
    obtain ⟨links, last, left, hchain, rfl, hleft⟩ := exists_chain cache v path
    have hlinks : (cache.after links).contains type field = true →
        cache.contains type field = true ∨
          Asks cache v (segmentsOf links ++ left) type field := by
      intro h
      refine (Cache.contains_after.mp h).imp_right ?_
      rintro ⟨link, hlink, rfl, rfl⟩
      obtain ⟨first, later, rfl⟩ := List.append_of_mem hlink
      exact ⟨first, link.target, segmentsOf later ++ left, hchain.before, by simp [segmentsOf], rfl⟩
    rw [hchain.walk] at h
    cases left with
    | nil => exact hlinks h
    | cons segment later =>
      obtain ⟨failure, hbroken⟩ := hleft segment later rfl
      rw [(hbroken.walk later).2] at h
      cases last with
      | object target =>
        rcases Cache.contains_resolve.mp h with h | ⟨rfl, rfl⟩
        · exact hlinks h
        · exact .inr ⟨links, target, later, hchain, rfl, rfl⟩
      | _ => exact hlinks h
  · have hkept {earlier later : Cache} (h : later.Keeps earlier)
        (hknown : earlier.contains type field = true) : later.contains type field = true := by
      obtain ⟨found, hfound⟩ := Option.isSome_iff_exists.mp hknown
      exact Option.isSome_iff_exists.mpr ⟨found, h type field found hfound⟩
    rintro (h | ⟨links, target, later, hchain, rfl, rfl⟩)
    · exact hkept (keeps_walk cache v path) h
    · rw [hchain.walk]
      have hasked :
          ((cache.after links).resolve target field).2.contains target.type field = true :=
        Cache.contains_resolve.mpr (.inr ⟨rfl, rfl⟩)
      rcases exists_link_or_broken (cache.after links) (.object target) field with
        ⟨_, accessor, next, ⟨⟩, hknown, hread⟩ | ⟨failure, hbroken⟩
      · rw [walk_link hknown hread]
        exact hkept (keeps_walk _ next later) hasked
      · rw [(hbroken.walk later).2]
        exact hasked

-- ---------------------------------------------------------------------------
-- Paths in two parts
-- ---------------------------------------------------------------------------

theorem walk_append (cache : Cache) (v : Value) (first second : List String) :
    walk cache v (first ++ second) = match walk cache v first with
      | (.ok last, cache) => walk cache last second
      | (.error failure, cache) => (.error failure, cache) := by
  induction first generalizing cache v with
  | nil => rfl
  | cons segment rest ih =>
    rcases exists_link_or_broken cache v segment with
      ⟨target, accessor, next, rfl, hknown, hread⟩ | ⟨failure, hbroken⟩
    · rw [List.cons_append, walk_link hknown hread, walk_link hknown hread, ih]
    · obtain ⟨hresult, hcache⟩ := hbroken.walk rest
      obtain ⟨hresult', hcache'⟩ := hbroken.walk (rest ++ second)
      rw [List.cons_append, Prod.ext_iff]
      rcases hwalk : walk cache v (segment :: rest) with ⟨result, later⟩
      rw [hwalk] at hresult hcache
      subst hresult
      exact ⟨hresult', hcache'.trans hcache.symm⟩

def Cache.answer (table : TypeTable) (cache : Cache) (type : TypeKey) (field : String) :
    Option Accessor :=
  (cache.find? type field).getD (discover (table type) field)

/-- The caches answer the same about types with the getters of the table. Two
that remember only what is there do, and so do one and the same cache before and
after it was used. -/
def Cache.Alike (table : TypeTable) (cache cache' : Cache) : Prop :=
  ∀ type field, cache.answer table type field = cache'.answer table type field

theorem Cache.Agrees.alike {table : TypeTable} (h : cache.Agrees table) (h' : cache'.Agrees table) :
    cache.Alike table cache' := by
  have hanswer {cache : Cache} (h : cache.Agrees table) (type : TypeKey) (field : String) :
      cache.answer table type field = discover (table type) field := by
    unfold answer
    cases hfound : cache.find? type field with
    | none => rfl
    | some found => exact h type field found hfound
  intro type field
  rw [hanswer h, hanswer h']

section
variable {table : TypeTable} {target : Object}

theorem Cache.resolve_answer (conforms : target.Conforms table) (cache : Cache) (field : String) :
    (cache.resolve target field).1 = cache.answer table target.type field ∧
      (cache.resolve target field).2.Alike table cache := by
  have hresult : (cache.resolve target field).1 = cache.answer table target.type field := by
    unfold resolve answer
    cases cache.find? target.type field with
    | some known => rfl
    | none => exact congrArg (discover · field) conforms.names_eq
  refine ⟨hresult, ?_⟩
  intro type name
  unfold answer at hresult ⊢
  rw [find?_resolve]
  split
  · rename_i hkey
    cases hkey
    exact hresult
  · rfl

theorem Broken.of_same {segment : String} {failure : Failure} (h : Broken cache segment v failure)
    (same : ∀ target, v = .object target →
      (cache'.resolve target segment).1 = (cache.resolve target segment).1) :
    Broken cache' segment v failure := by
  cases h with
  | notObject scalar => exact .notObject scalar
  | noAccessor unknown => exact .noAccessor ((same _ rfl).trans unknown)
  | noValue known nothing => exact .noValue ((same _ rfl).trans known) nothing

theorem Cache.Alike.walk (h : cache.Alike table cache') (conforms : v.Conforms table)
    (path : List String) :
    (Field.walk cache v path).1 = (Field.walk cache' v path).1 ∧
      (Field.walk cache v path).2.Alike table cache := by
  induction path generalizing cache cache' v with
  | nil => exact ⟨rfl, fun _ _ => rfl⟩
  | cons segment rest ih =>
    have hsame (target : Object) (hv : v = .object target) :
        (cache'.resolve target segment).1 = (cache.resolve target segment).1 ∧
          (cache.resolve target segment).2.Alike table cache ∧
          (cache'.resolve target segment).2.Alike table cache' := by
      have htarget : target.Conforms table := by simpa [hv, Value.Conforms] using conforms
      obtain ⟨hresult, halike⟩ := cache.resolve_answer htarget segment
      obtain ⟨hresult', halike'⟩ := cache'.resolve_answer htarget segment
      exact ⟨hresult'.trans ((h _ _).symm.trans hresult.symm), halike, halike'⟩
    rcases exists_link_or_broken cache v segment with
      ⟨target, accessor, next, rfl, hknown, hread⟩ | ⟨failure, hbroken⟩
    · obtain ⟨hresult, halike, halike'⟩ := hsame target rfl
      have hnext : next.Conforms table := by
        have hcall := Object.Conforms.call (by simpa [Value.Conforms] using conforms) accessor.slot
        simpa [hread, Reading.Conforms] using hcall
      rw [walk_link hknown hread, walk_link (hresult.trans hknown) hread]
      have hagree : (cache.resolve target segment).2.Alike table (cache'.resolve target segment).2 :=
        fun type field => (halike _ _).trans ((h _ _).trans (halike' _ _).symm)
      obtain ⟨hwalk, hlater⟩ := ih hagree hnext
      exact ⟨hwalk, fun type field => (hlater _ _).trans (halike _ _)⟩
    · obtain ⟨hresult, hcache⟩ := hbroken.walk rest
      have hbroken' := hbroken.of_same fun target hv => (hsame target hv).1
      refine ⟨hresult.trans (hbroken'.walk rest).1.symm, ?_⟩
      rw [hcache]
      cases v with
      | object target => exact (hsame target rfl).2.1
      | _ => exact fun _ _ => rfl

theorem Chain.conforms (h : Chain cache v links last) (conforms : v.Conforms table) :
    last.Conforms table := by
  induction h with
  | nil => exact conforms
  | @cons _ target _ accessor _ _ _ known read later ih =>
    have hcall := Object.Conforms.call (by simpa [Value.Conforms] using conforms) accessor.slot
    exact ih (by simpa [read, Reading.Conforms] using hcall)

end

-- ---------------------------------------------------------------------------
-- Traversals
-- ---------------------------------------------------------------------------

/-- A source that looks names up in an object, through the cache of the walk or
through one of its own that answers the same. -/
inductive Source.Over (table : TypeTable) (cache : Cache) (target : Object) :
    {σ : Type} → Source σ → σ → Prop
  | shared {σ : Type} (state : σ) : Over table cache target (.reflected target) state
  | separate {own : Cache} (alike : own.Alike table cache) :
    Over table cache target (.ofObject target) own

theorem Source.traverse?_eq (source : Source σ) (first : String) (rest : List String)
    (w : World σ) :
    (source.traverse? (first :: rest) w).1 = (source.lookup first w).1.toOption.bind fun v =>
      (walk (source.lookup first w).2.cache v rest).1.toOption := by
  simp only [traverse?, traverse]
  rcases source.lookup first w with ⟨_ | _ | _, start⟩ <;> rfl

theorem walk_object_toOption (cache : Cache) (target : Object) (first : String)
    (rest : List String) :
    (walk cache (.object target) (first :: rest)).1.toOption =
      (cache.read target first).1.bind fun v =>
        (walk (cache.resolve target first).2 v rest).1.toOption := by
  simp only [walk, Cache.read]
  rcases cache.resolve target first with ⟨_ | accessor, later⟩
  · rfl
  · simp only [Option.bind_some]
    cases accessor.invoke target <;> rfl

section
variable {table : TypeTable} {target : Object}

theorem Source.Over.traverse? {source : Source σ} {w : World σ}
    (rooted : Source.Over table w.cache target source w.state) (conforms : target.Conforms table)
    {path : List String} (nonempty : path ≠ []) :
    (source.traverse? path w).1 = (walk w.cache (.object target) path).1.toOption := by
  obtain ⟨first, rest, rfl⟩ := List.exists_cons_of_ne_nil nonempty
  rw [source.traverse?_eq, walk_object_toOption]
  obtain ⟨cache, state⟩ := w
  cases rooted with
  | shared state =>
    have hlookup : ((Source.reflected target).lookup first ⟨cache, state⟩).1.toOption =
        (cache.read target first).1 := by
      simp only [lookup]
      cases (cache.read target first).1 <;> rfl
    rw [hlookup]
    rfl
  | separate alike =>
    have hread : (state.read target first).1 = (cache.read target first).1 := by
      have hresolve : (state.resolve target first).1 = (cache.resolve target first).1 :=
        (state.resolve_answer conforms first).1.trans
          ((alike _ _).trans (cache.resolve_answer conforms first).1.symm)
      exact congrArg (·.bind (·.invoke target)) hresolve
    have hlookup : ((Source.ofObject target).lookup first ⟨cache, state⟩).1.toOption =
        (cache.read target first).1 := by
      rw [← hread]
      simp only [lookup, ofObject]
      cases (state.read target first).1 <;> rfl
    rw [hlookup]
    refine Option.bind_congr fun v hv => ?_
    obtain ⟨accessor, -, hinvoke⟩ := Option.bind_eq_some_iff.mp hv
    have hconforms : v.Conforms table := (conforms.call accessor.slot).of_toOption hinvoke
    have halike : cache.Alike table (cache.resolve target first).2 :=
      fun type field => ((cache.resolve_answer conforms first).2 type field).symm
    exact congrArg (·.toOption) (halike.walk hconforms rest).1

/-- Going along a path in two parts, from a source over an object and then from
one over the object that the first part leads to. -/
theorem Source.Over.traverse?_append {source : Source σ} {w : World σ}
    (rooted : Source.Over table w.cache target source w.state) (conforms : target.Conforms table)
    {next : Object → Source τ} {w' : World τ} (alike : w.cache.Alike table w'.cache)
    (overNext : ∀ target, Source.Over table w'.cache target (next target) w'.state)
    {first second : List String} (hfirst : first ≠ []) (hsecond : second ≠ []) :
    (source.traverse? (first ++ second) w).1 = (source.traverse? first w).1.bind fun v =>
      match v with
      | .object target => ((next target).traverse? second w').1
      | _ => none := by
  have hv : (Value.object target).Conforms table := by simpa [Value.Conforms] using conforms
  have hnonempty : first ++ second ≠ [] := by simp [hfirst]
  rw [rooted.traverse? conforms hfirst, rooted.traverse? conforms hnonempty, walk_append]
  have hstays : (walk w.cache (.object target) first).2.Alike table w'.cache :=
    fun type field => ((alike.walk hv first).2 type field).trans (alike type field)
  rcases hwalk : walk w.cache (.object target) first with ⟨failure | last, later⟩
  · rfl
  · rw [hwalk] at hstays
    obtain ⟨links, hchain, -⟩ := walk_eq_ok_iff.mp (congrArg Prod.fst hwalk)
    have hlast := hchain.conforms hv
    cases last with
    | object target =>
      have htarget : target.Conforms table := by simpa [Value.Conforms] using hlast
      refine (congrArg (·.toOption) (hstays.walk hlast second).1).trans ?_
      exact ((overNext target).traverse? htarget hsecond).symm
    | _ =>
      obtain ⟨segment, rest, rfl⟩ := List.exists_cons_of_ne_nil hsecond
      rfl

end

section
variable {source : Source σ} {first : String} {rest : List String} {w : World σ}

theorem Source.traverse_value {start : World σ} {top : Value}
    (answer : source.lookup first w = (.value top, start)) :
    source.traverse (first :: rest) w =
      ((walk start.cache top rest).1, { start with cache := (walk start.cache top rest).2 }) := by
  simp only [traverse, answer]

theorem Source.traverse_eq_ok_iff :
    (source.traverse (first :: rest) w).1 = .ok v ↔
      ∃ top links, (source.lookup first w).1 = .value top ∧
        Chain (source.lookup first w).2.cache top links v ∧ segmentsOf links = rest := by
  rcases hlookup : source.lookup first w with ⟨_ | _ | _, start⟩
  · simpa [traverse_value hlookup] using walk_eq_ok_iff
  · simp [traverse, hlookup]
  · simp [traverse, hlookup]

theorem Source.traverse_eq_error_iff {failure : Failure} :
    (source.traverse (first :: rest) w).1 = .error failure ↔
      (source.lookup first w).1 = .absent ∧ failure = .pathMiss first "no value" ∨
      (∃ fault, (source.lookup first w).1 = .fault fault) ∧
        failure = .pathMiss first "field provider panicked" ∨
      ∃ top links v segment later, (source.lookup first w).1 = .value top ∧
        Chain (source.lookup first w).2.cache top links v ∧
        segmentsOf links ++ segment :: later = rest ∧
        Broken ((source.lookup first w).2.cache.after links) segment v failure := by
  rcases hlookup : source.lookup first w with ⟨_ | _ | _, start⟩
  · simpa [traverse_value hlookup] using walk_eq_error_iff
  · simp [traverse, hlookup, eq_comm]
  · simp [traverse, hlookup, eq_comm]

theorem Source.contains_traverse {type : TypeKey} {field : String} :
    (source.traverse (first :: rest) w).2.cache.contains type field = true ↔
      (source.lookup first w).2.cache.contains type field = true ∨
        ∃ top, (source.lookup first w).1 = .value top ∧
          Asks (source.lookup first w).2.cache top rest type field := by
  rcases hlookup : source.lookup first w with ⟨_ | _ | _, start⟩
  · simpa [traverse_value hlookup] using contains_walk
  · simp [traverse, hlookup]
  · simp [traverse, hlookup]

theorem Source.traverse_leaves :
    (source.traverse (first :: rest) w).2.state = (source.lookup first w).2.state ∧
      (source.traverse (first :: rest) w).2.cache.Keeps (source.lookup first w).2.cache := by
  rcases hlookup : source.lookup first w with ⟨_ | _ | _, start⟩
  · rw [traverse_value hlookup]
    exact ⟨rfl, keeps_walk start.cache _ rest⟩
  · simpa [traverse, hlookup] using start.cache.keeps_self
  · simpa [traverse, hlookup] using start.cache.keeps_self

end

/-- A traversal arrives at a value exactly if the source answers the first
segment and there are links from there for all others. Otherwise its failure
names the first segment without one: the first of all, if the source does not
answer it, or one that the links before it lead to. The source is asked once.
Apart from what the source itself remembers, the cache keeps what it knew and
comes to know the segments that were asked of objects on the way. From a source
over an object, where the type of an object determines its getters, a path is
gone along in two parts as in one. -/
theorem Source.traverse_links (source : Source σ) (first : String) (rest : List String)
    (w : World σ) :
    let answer := (source.lookup first w).1
    let start := (source.lookup first w).2
    let result := (source.traverse (first :: rest) w).1
    let left := (source.traverse (first :: rest) w).2
    (∀ v, result = .ok v ↔ ∃ top links, answer = .value top ∧ Chain start.cache top links v ∧
      segmentsOf links = rest) ∧
    (∀ failure, result = .error failure ↔
      answer = .absent ∧ failure = .pathMiss first "no value" ∨
      (∃ fault, answer = .fault fault) ∧ failure = .pathMiss first "field provider panicked" ∨
      ∃ top links v segment later, answer = .value top ∧ Chain start.cache top links v ∧
        segmentsOf links ++ segment :: later = rest ∧
        Broken (start.cache.after links) segment v failure) ∧
    left.state = start.state ∧ left.cache.Keeps start.cache ∧
    (∀ type field, left.cache.contains type field = true ↔
      start.cache.contains type field = true ∨
        ∃ top, answer = .value top ∧ Asks start.cache top rest type field) ∧
    ∀ (table : TypeTable) (target : Object), target.Conforms table →
      Source.Over table w.cache target source w.state →
      ∀ {τ : Type} (next : Object → Source τ) (w' : World τ), w.cache.Alike table w'.cache →
        (∀ target, Source.Over table w'.cache target (next target) w'.state) →
        ∀ p q : List String, p ≠ [] → q ≠ [] →
          (source.traverse? (p ++ q) w).1 = (source.traverse? p w).1.bind fun v =>
            match v with
            | .object target => ((next target).traverse? q w').1
            | _ => none := by
  intro answer start result left
  refine ⟨fun v => traverse_eq_ok_iff, fun failure => traverse_eq_error_iff, traverse_leaves.1,
    traverse_leaves.2, fun type field => contains_traverse, ?_⟩
  intro table target conforms rooted τ next w' alike overNext p q hp hq
  exact rooted.traverse?_append conforms alike overNext hp hq

def functionTable (type : TypeKey) : List String :=
  if type = 1 then ["configuration"] else ["function_arn"]

def functionResponse : Object :=
  .mk 1 "GetFunctionResponse" [.mk "configuration" (.value (.object
    (.mk 2 "Configuration" [.mk "function_arn" (.value (.text "arn"))])))]

theorem traverse_links_in_two_parts :
    let w : World Cache := ⟨{}, {}⟩
    ((Source.ofObject functionResponse).traverse? ["Configuration", "FunctionArn"] w).1 =
        some (.text "arn") ∧
      ((Source.ofObject functionResponse).traverse? ["Configuration"] w).1.bind (fun v =>
        match v with
        | .object target => ((Source.ofObject target).traverse? ["FunctionArn"] w).1
        | _ => none) = some (.text "arn") := by
  intro w
  have hwhole :
      ((Source.ofObject functionResponse).traverse? ["Configuration", "FunctionArn"] w).1 =
        some (.text "arn") := rfl
  have halike : Cache.Alike functionTable {} {} :=
    (Cache.agrees_empty _).alike (Cache.agrees_empty _)
  have hconforms : functionResponse.Conforms functionTable := by
    simp [functionResponse, functionTable, Object.Conforms, gettersConform, Reading.Conforms,
      Value.Conforms, Getter.name]
  obtain ⟨-, -, -, -, -, hparts⟩ :=
    Source.traverse_links (.ofObject functionResponse) "Configuration" ["FunctionArn"] w
  exact ⟨hwhole, (hparts functionTable functionResponse hconforms (.separate halike)
    Source.ofObject w halike (fun _ => .separate halike) ["Configuration"] ["FunctionArn"]
    (by simp) (by simp)).symm.trans hwhole⟩

end Telemetry.Field
