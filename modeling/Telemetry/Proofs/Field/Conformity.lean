import Telemetry.Field.Traverse
import Telemetry.Proofs.Entries

/-!
# The accessor cache saves work and nothing else

A type table lists the getters of each type. Objects conform to it when all
objects of a type, however deep in a value, have the getters that it lists,
and a cache agrees with it when every answer that it remembers is the one
that discovery finds there. Over conforming objects an agreeing cache cannot
be noticed: resolving a field, walking a path and asking a source give what
they would give without it (`Cache.Agrees.resolve`, `Cache.Agrees.walk`,
`Source.traverse_agrees`), and the cache that they leave agrees again.
-/

namespace Telemetry.Field

abbrev TypeTable := TypeKey → List String

mutual
/-- Every object in the value has the getters of its type. -/
def Value.Conforms (table : TypeTable) : Value → Prop
  | .list items => itemsConform table items
  | .object target => target.Conforms table
  | _ => True
def Object.Conforms (table : TypeTable) : Object → Prop
  | .mk type _ getters => getters.map Getter.name = table type ∧ gettersConform table getters
def itemsConform (table : TypeTable) : List Value → Prop
  | [] => True
  | v :: rest => v.Conforms table ∧ itemsConform table rest
def gettersConform (table : TypeTable) : List Getter → Prop
  | [] => True
  | .mk _ reading :: rest => reading.Conforms table ∧ gettersConform table rest
def Reading.Conforms (table : TypeTable) : Reading → Prop
  | .value v => v.Conforms table
  | .absent => True
  | .fault _ => True
end

/-- What the cache remembers is what discovery finds in the table. -/
def Cache.Agrees (table : TypeTable) (cache : Cache) : Prop :=
  ∀ type field found, cache.find? type field = some found → found = discover (table type) field

theorem Cache.agrees_empty (table : TypeTable) : Cache.Agrees table {} := by
  intro type field found h
  simp [Cache.find?, Entries.get?] at h

variable {table : TypeTable}

-- ---------------------------------------------------------------------------
-- Fields of an object
-- ---------------------------------------------------------------------------

theorem Object.Conforms.names_eq {target : Object} (h : target.Conforms table) :
    target.names = table target.type := by
  cases target with
  | mk type typeName getters =>
    simp only [Object.Conforms] at h
    exact h.1

theorem gettersConform.of_mem {getters : List Getter} (h : gettersConform table getters)
    {getter : Getter} (hg : getter ∈ getters) : getter.reading.Conforms table := by
  induction getters with
  | nil => simp at hg
  | cons head rest ih =>
    cases head with
    | mk name reading =>
      simp only [gettersConform] at h
      rcases List.mem_cons.mp hg with rfl | hg
      · exact h.1
      · exact ih h.2 hg

theorem Object.Conforms.call {target : Object} (h : target.Conforms table) (slot : Nat) :
    (target.call slot).Conforms table := by
  cases target with
  | mk type typeName getters =>
    simp only [Object.Conforms] at h
    simp only [Object.call, Object.getters]
    cases hg : getters[slot]? with
    | none => simp [Reading.Conforms]
    | some getter => exact h.2.of_mem (List.mem_of_getElem? hg)

theorem Reading.Conforms.of_toOption {reading : Reading} (h : reading.Conforms table)
    {v : Value} (hv : reading.toOption = some v) : v.Conforms table := by
  cases reading with
  | value w =>
    simp only [Reading.toOption, Option.some.injEq] at hv
    simpa [Reading.Conforms, hv] using h
  | absent => simp [Reading.toOption] at hv
  | fault f => simp [Reading.toOption] at hv

def Object.get? (target : Object) (field : String) : Option Value :=
  (discover target.names field).bind (·.invoke target)

theorem Object.Conforms.get? {target : Object} (h : target.Conforms table) {field : String}
    {v : Value} (hv : target.get? field = some v) : v.Conforms table := by
  simp only [Object.get?, Option.bind_eq_some_iff] at hv
  obtain ⟨accessor, -, hv⟩ := hv
  exact (h.call accessor.slot).of_toOption hv

theorem Cache.Agrees.resolve {cache : Cache} (hc : cache.Agrees table) {target : Object}
    (ht : target.Conforms table) (field : String) :
    (cache.resolve target field).1 = discover target.names field ∧
      (cache.resolve target field).2.Agrees table := by
  unfold Cache.resolve
  cases hf : cache.find? target.type field with
  | some known => exact ⟨ht.names_eq ▸ hc _ _ _ hf, hc⟩
  | none =>
    refine ⟨rfl, ?_⟩
    intro type name found h
    simp only [Cache.find?, Entries.get?_append, Option.or_eq_some_iff] at h
    rcases h with h | ⟨-, h⟩
    · exact hc type name found h
    · -- the one entry that was not there before
      simp only [Entries.get?] at h
      split at h
      · rename_i hk
        cases hk
        cases h
        rw [ht.names_eq]
      · cases h

theorem Cache.Agrees.read {cache : Cache} (hc : cache.Agrees table) {target : Object}
    (ht : target.Conforms table) (field : String) :
    (cache.read target field).1 = target.get? field ∧ (cache.read target field).2.Agrees table := by
  obtain ⟨hr, ha⟩ := hc.resolve ht field
  exact ⟨congrArg (·.bind (·.invoke target)) hr, ha⟩

-- ---------------------------------------------------------------------------
-- Paths
-- ---------------------------------------------------------------------------

def Value.child? : Value → String → Option Value
  | .object target, field => target.get? field
  | _, _ => none

def Value.descend (v : Value) : List String → Option Value
  | [] => some v
  | segment :: rest => (v.child? segment).bind (·.descend rest)

theorem Cache.Agrees.walk {cache : Cache} (hc : cache.Agrees table) {v : Value}
    (hv : v.Conforms table) (path : List String) :
    (walk cache v path).1.toOption = v.descend path ∧ (walk cache v path).2.Agrees table := by
  induction path generalizing cache v with
  | nil =>
    exact ⟨by simp [Field.walk, Value.descend, Except.toOption], by simpa [Field.walk] using hc⟩
  | cons segment rest ih =>
    cases v with
    | object target =>
      have ht : target.Conforms table := by simpa [Value.Conforms] using hv
      obtain ⟨hr, ha⟩ := hc.resolve ht segment
      have hget : (cache.resolve target segment).1.bind (·.invoke target) = target.get? segment :=
        congrArg (·.bind (·.invoke target)) hr
      simp only [Field.walk, Value.descend, Value.child?]
      rcases hres : cache.resolve target segment with ⟨found, cache'⟩
      rw [hres] at hget ha
      cases found with
      | none =>
        simp only [Option.bind_none] at hget
        exact ⟨by simp [← hget, Except.toOption], ha⟩
      | some accessor =>
        simp only [Option.bind_some] at hget
        simp only [hget]
        cases hi : target.get? segment with
        | none => exact ⟨by simp [Except.toOption], ha⟩
        | some w => exact ih ha (ht.get? hi)
    | _ =>
      exact ⟨by simp [Field.walk, Value.descend, Value.child?, Except.toOption],
        by simpa [Field.walk] using hc⟩

-- ---------------------------------------------------------------------------
-- Sources
-- ---------------------------------------------------------------------------

/-- What the source answers to a name, found without a cache, and its state
after that. -/
def Source.answer (source : Source σ) (name : String) (state : σ) : Reading × σ :=
  match source with
  | .provider lookup => lookup name state
  | .reflected target => (.ofOption (target.get? name), state)

def Source.after (source : Source σ) (names : List String) (state : σ) : σ :=
  names.foldl (fun state name => (source.answer name state).2) state

structure Source.Conforms (table : TypeTable) (source : Source σ) (state : σ) : Prop where
  target : ∀ target, source = .reflected target → target.Conforms table
  answer : ∀ names name, (source.answer name (source.after names state)).1.Conforms table

theorem Source.after_append (source : Source σ) (names : List String) (name : String) (state : σ) :
    source.after (names ++ [name]) state = (source.answer name (source.after names state)).2 := by
  simp [Source.after]

theorem Source.ofFields_conforms {field : String → Reading}
    (h : ∀ name, (field name).Conforms table) (state : σ) :
    (Source.ofFields field).Conforms table state :=
  ⟨fun _ h => (nomatch h), fun _ name => h name⟩

/-- The value at the end of a path, found without a cache. -/
def Source.value? (source : Source σ) (state : σ) (path : List String) : Option Value :=
  match path with
  | [] => none
  | first :: rest => (source.answer first state).1.toOption.bind (·.descend rest)

theorem Source.lookup_agrees (source : Source σ) (name : String) {w : World σ}
    (hc : w.cache.Agrees table)
    (ht : ∀ target, source = .reflected target → target.Conforms table) :
    (source.lookup name w).1 = (source.answer name w.state).1 ∧
      (source.lookup name w).2.state = (source.answer name w.state).2 ∧
      (source.lookup name w).2.cache.Agrees table := by
  cases source with
  | provider lookup => exact ⟨rfl, rfl, hc⟩
  | reflected target =>
    obtain ⟨hr, ha⟩ := hc.read (ht target rfl) name
    exact ⟨congrArg Reading.ofOption hr, rfl, ha⟩

/-- A walk through the source gives what the path leads to, moves the source
on by one answer and leaves a cache that agrees. -/
theorem Source.traverse_agrees (source : Source σ) (first : String) (rest : List String)
    {w : World σ} (hc : w.cache.Agrees table)
    (ht : ∀ target, source = .reflected target → target.Conforms table)
    (hv : (source.answer first w.state).1.Conforms table) :
    (source.traverse (first :: rest) w).1.toOption = source.value? w.state (first :: rest) ∧
      (source.traverse (first :: rest) w).2.state = (source.answer first w.state).2 ∧
      (source.traverse (first :: rest) w).2.cache.Agrees table := by
  obtain ⟨hr, hs, ha⟩ := source.lookup_agrees first hc ht
  simp only [Source.traverse, Source.value?, ← hr]
  rw [← hr] at hv
  rcases hl : source.lookup first w with ⟨reading, w'⟩
  rw [hl] at hs ha hv
  cases reading with
  | absent => exact ⟨rfl, hs, ha⟩
  | fault f => exact ⟨rfl, hs, ha⟩
  | value v =>
    obtain ⟨hw, hwa⟩ := ha.walk (v := v) (by simpa [Reading.Conforms] using hv) rest
    exact ⟨hw, hs, hwa⟩

/-- What a world is after lookups of these names: the source's state comes
from them alone, and the cache agrees with the table. -/
structure World.Follows (table : TypeTable) (source : Source σ) (state : σ) (names : List String)
    (w : World σ) : Prop where
  reached : w.state = source.after names state
  cache : w.cache.Agrees table

theorem World.follows_nil (source : Source σ) {w : World σ} (h : w.cache.Agrees table) :
    w.Follows table source w.state [] :=
  ⟨rfl, h⟩

theorem World.Follows.traverse {source : Source σ} {state : σ} {names : List String} {w : World σ}
    (h : w.Follows table source state names) (conforms : source.Conforms table state)
    (first : String) (rest : List String) :
    (source.traverse (first :: rest) w).1.toOption =
        source.value? (source.after names state) (first :: rest) ∧
      (source.traverse (first :: rest) w).2.Follows table source state (names ++ [first]) := by
  obtain ⟨hv, hs, hc⟩ := source.traverse_agrees first rest h.cache conforms.target
    (by rw [h.reached]; exact conforms.answer names first)
  rw [h.reached] at hv hs
  exact ⟨hv, ⟨by rw [hs, source.after_append], hc⟩⟩

end Telemetry.Field
