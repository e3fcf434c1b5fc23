import Telemetry.Field.Render
import Telemetry.Field.Traverse

/-!
# Which faults escape a rendering

A rendering calls getters bare, so it ends at the first faulting getter that
it meets. `Value.faults` lists the getters that it would meet, in order, and
a rendering faults with the first of them, if there is one
(`Value.fault?_render`). Everywhere else a fault counts as absence: masking
every fault of a value as an absent reading changes no rendering that
succeeds (`Value.render_mask`) and no walk (`Source.traverse_mask`).
-/

namespace Telemetry.Field

mutual
/-- The faults of the getters that a rendering of the value calls, in order.
The value stands inside `depth` objects. -/
def Value.faults (depth : Nat) : Value → List Fault
  | .list items => itemFaults depth items
  | .object target => target.faults depth
  | _ => []
def Object.faults (depth : Nat) : Object → List Fault
  | .mk _ _ getters => if maxRenderDepth ≤ depth then [] else getterFaults (depth + 1) getters
def itemFaults (depth : Nat) : List Value → List Fault
  | [] => []
  | v :: rest => v.faults depth ++ itemFaults depth rest
def getterFaults (depth : Nat) : List Getter → List Fault
  | [] => []
  | .mk _ reading :: rest => reading.faults depth ++ getterFaults depth rest
def Reading.faults (depth : Nat) : Reading → List Fault
  | .value v => v.faults depth
  | .absent => []
  | .fault f => [f]
end

mutual
/-- The value with every fault in it turned into absence. -/
def Value.mask : Value → Value
  | .list items => .list (maskItems items)
  | .object target => .object target.mask
  | v => v
def Object.mask : Object → Object
  | .mk type typeName getters => .mk type typeName (maskGetters getters)
def maskItems : List Value → List Value
  | [] => []
  | v :: rest => v.mask :: maskItems rest
def maskGetters : List Getter → List Getter
  | [] => []
  | .mk name reading :: rest => .mk name reading.mask :: maskGetters rest
def Reading.mask : Reading → Reading
  | .value v => .value v.mask
  | .absent => .absent
  | .fault _ => .absent
end

def Source.mask : Source σ → Source σ
  | .provider lookup => .provider fun name state =>
    let (reading, state) := lookup name state
    (reading.mask, state)
  | .reflected target => .reflected target.mask

def fault? : Except Fault α → Option Fault
  | .ok _ => none
  | .error f => some f

@[simp] theorem fault?_ok (a : α) : fault? (.ok a) = none := rfl

@[simp] theorem fault?_error (f : Fault) : fault? (.error f : Except Fault α) = some f := rfl

theorem fault?_bind (x : Except Fault α) (next : α → Except Fault β) :
    fault? (x >>= next) = match x with
      | .ok a => fault? (next a)
      | .error f => some f := by
  cases x <;> rfl

@[simp] theorem fault?_pure (a : α) : fault? (pure a : Except Fault α) = none := rfl

theorem bind_eq_ok_iff {x : Except Fault α} {next : α → Except Fault β} {b : β} :
    x >>= next = .ok b ↔ ∃ a, x = .ok a ∧ next a = .ok b := by
  cases x <;> simp [bind, Except.bind]

theorem fault?_eq_none_iff {x : Except Fault α} : fault? x = none ↔ ∃ a, x = .ok a := by
  cases x <;> simp

-- ---------------------------------------------------------------------------
-- A rendering ends at the first fault it meets
-- ---------------------------------------------------------------------------

mutual
theorem Value.fault?_jsonAt (v : Value) (depth : Nat) :
    fault? (v.jsonAt depth) = (v.faults depth).head? := by
  cases v with
  | list items =>
    simp only [Value.jsonAt, Value.faults, fault?_bind, ← fault?_jsonItems items depth]
    cases jsonItems depth items <;> rfl
  | object target =>
    simp only [Value.jsonAt, Value.faults, fault?_bind, ← target.fault?_membersAt depth]
    cases target.membersAt depth <;> rfl
  | _ => rfl
theorem Object.fault?_membersAt (target : Object) (depth : Nat) :
    fault? (target.membersAt depth) = (target.faults depth).head? := by
  cases target with
  | mk type typeName getters =>
    simp only [Object.membersAt, Object.faults]
    split
    · rfl
    · rw [fault?_bind, ← fault?_jsonMembers getters (depth + 1)]
      cases jsonMembers (depth + 1) getters <;> rfl
theorem fault?_jsonItems (items : List Value) (depth : Nat) :
    fault? (jsonItems depth items) = (itemFaults depth items).head? := by
  cases items with
  | nil => rfl
  | cons v rest =>
    have hv := v.fault?_jsonAt depth
    have hrest := fault?_jsonItems rest depth
    simp only [jsonItems, itemFaults, fault?_bind, List.head?_append, ← hv, ← hrest]
    rcases v.jsonAt depth with f | (_ | json)
    · rfl
    · rfl
    · cases jsonItems depth rest <;> rfl
theorem fault?_jsonMembers (getters : List Getter) (depth : Nat) :
    fault? (jsonMembers depth getters) = (getterFaults depth getters).head? := by
  cases getters with
  | nil => rfl
  | cons getter rest =>
    cases getter with
    | mk name reading =>
      have hreading := reading.fault?_jsonAt depth
      have hrest := fault?_jsonMembers rest depth
      simp only [jsonMembers, getterFaults, fault?_bind, List.head?_append, ← hreading, ← hrest]
      rcases reading.jsonAt depth with f | (_ | json)
      · rfl
      · rfl
      · cases jsonMembers depth rest <;> rfl
theorem Reading.fault?_jsonAt (reading : Reading) (depth : Nat) :
    fault? (reading.jsonAt depth) = (reading.faults depth).head? := by
  cases reading with
  | value v => exact v.fault?_jsonAt depth
  | absent => rfl
  | fault f => rfl
end

theorem Object.fault?_render (target : Object) :
    fault? target.render = (target.faults 0).head? := by
  rw [← target.fault?_membersAt 0, Object.render, fault?_bind]
  rcases target.membersAt 0 with f | (_ | _ | _) <;> rfl

mutual
theorem Value.fault?_render (v : Value) : fault? v.render = (v.faults 0).head? := by
  cases v with
  | list items =>
    simp only [Value.render, Value.faults, fault?_bind, ← fault?_renderItems items]
    cases renderItems items <;> rfl
  | object target => exact target.fault?_render
  | _ => rfl
theorem fault?_renderItems (items : List Value) :
    fault? (renderItems items) = (itemFaults 0 items).head? := by
  cases items with
  | nil => rfl
  | cons v rest =>
    have hv := v.fault?_render
    have hrest := fault?_renderItems rest
    simp only [renderItems, itemFaults, fault?_bind, List.head?_append, ← hv, ← hrest]
    rcases v.render with f | (_ | s)
    · rfl
    · rfl
    · cases renderItems rest <;> rfl
end

theorem Value.render_eq_ok {v : Value} (h : v.faults 0 = []) : ∃ text, v.render = .ok text := by
  apply fault?_eq_none_iff.mp
  rw [v.fault?_render, h]
  rfl

theorem Object.render_eq_some {target : Object} {text : String}
    (h : target.render = .ok (some text)) :
    ∃ members, (Value.object target).toJson = .ok (some (.object members)) ∧
      text = (Json.Value.object members).write := by
  obtain ⟨members?, hmembers, htext⟩ := bind_eq_ok_iff.mp h
  rcases members? with _ | (_ | ⟨member, members⟩)
  · cases htext
  · cases htext
  · cases htext
    refine ⟨_, ?_, rfl⟩
    simp only [Value.toJson, Value.jsonAt, hmembers]
    rfl

-- ---------------------------------------------------------------------------
-- Elsewhere a fault is an absence
-- ---------------------------------------------------------------------------

mutual
theorem Value.faults_mask (v : Value) (depth : Nat) : v.mask.faults depth = [] := by
  cases v with
  | list items => simpa [Value.mask, Value.faults] using itemFaults_mask items depth
  | object target => simpa [Value.mask, Value.faults] using target.faults_mask depth
  | _ => rfl
theorem Object.faults_mask (target : Object) (depth : Nat) : target.mask.faults depth = [] := by
  cases target with
  | mk type typeName getters =>
    simp only [Object.mask, Object.faults]
    split
    · rfl
    · exact getterFaults_mask getters (depth + 1)
theorem itemFaults_mask (items : List Value) (depth : Nat) :
    itemFaults depth (maskItems items) = [] := by
  cases items with
  | nil => rfl
  | cons v rest =>
    simp only [maskItems, itemFaults, v.faults_mask depth, itemFaults_mask rest depth,
      List.append_nil]
theorem getterFaults_mask (getters : List Getter) (depth : Nat) :
    getterFaults depth (maskGetters getters) = [] := by
  cases getters with
  | nil => rfl
  | cons getter rest =>
    cases getter with
    | mk name reading =>
      simp only [maskGetters, getterFaults, reading.faults_mask depth,
        getterFaults_mask rest depth, List.append_nil]
theorem Reading.faults_mask (reading : Reading) (depth : Nat) :
    reading.mask.faults depth = [] := by
  cases reading with
  | value v => exact v.faults_mask depth
  | absent => rfl
  | fault f => rfl
end

mutual
theorem Value.jsonAt_mask (v : Value) (depth : Nat) (h : v.faults depth = []) :
    v.mask.jsonAt depth = v.jsonAt depth := by
  cases v with
  | list items =>
    simp only [Value.faults] at h
    simp only [Value.mask, Value.jsonAt, jsonItems_mask items depth h]
  | object target =>
    simp only [Value.faults] at h
    simp only [Value.mask, Value.jsonAt, target.membersAt_mask depth h]
  | _ => rfl
theorem Object.membersAt_mask (target : Object) (depth : Nat) (h : target.faults depth = []) :
    target.mask.membersAt depth = target.membersAt depth := by
  cases target with
  | mk type typeName getters =>
    simp only [Object.faults] at h
    simp only [Object.mask, Object.membersAt]
    split
    · rfl
    · rename_i hd
      rw [if_neg hd] at h
      rw [jsonMembers_mask getters (depth + 1) h]
theorem jsonItems_mask (items : List Value) (depth : Nat) (h : itemFaults depth items = []) :
    jsonItems depth (maskItems items) = jsonItems depth items := by
  cases items with
  | nil => rfl
  | cons v rest =>
    simp only [itemFaults, List.append_eq_nil_iff] at h
    simp only [maskItems, jsonItems, v.jsonAt_mask depth h.1, jsonItems_mask rest depth h.2]
theorem jsonMembers_mask (getters : List Getter) (depth : Nat)
    (h : getterFaults depth getters = []) :
    jsonMembers depth (maskGetters getters) = jsonMembers depth getters := by
  cases getters with
  | nil => rfl
  | cons getter rest =>
    cases getter with
    | mk name reading =>
      simp only [getterFaults, List.append_eq_nil_iff] at h
      simp only [maskGetters, jsonMembers, reading.jsonAt_mask depth h.1,
        jsonMembers_mask rest depth h.2]
theorem Reading.jsonAt_mask (reading : Reading) (depth : Nat) (h : reading.faults depth = []) :
    reading.mask.jsonAt depth = reading.jsonAt depth := by
  cases reading with
  | value v => exact v.jsonAt_mask depth h
  | absent => rfl
  | fault f => simp [Reading.faults] at h
end

mutual
theorem Value.render_mask (v : Value) (h : v.faults 0 = []) : v.mask.render = v.render := by
  cases v with
  | list items =>
    simp only [Value.faults] at h
    simp only [Value.mask, Value.render, renderItems_mask items h]
  | object target =>
    simp only [Value.faults] at h
    simp only [Value.mask, Value.render, Object.render, target.membersAt_mask 0 h]
  | _ => rfl
theorem renderItems_mask (items : List Value) (h : itemFaults 0 items = []) :
    renderItems (maskItems items) = renderItems items := by
  cases items with
  | nil => rfl
  | cons v rest =>
    simp only [itemFaults, List.append_eq_nil_iff] at h
    simp only [maskItems, renderItems, v.render_mask h.1, renderItems_mask rest h.2]
end

theorem Value.kind_mask (v : Value) : v.mask.kind = v.kind := by
  cases v <;> simp [Value.mask, Value.kind]

theorem Reading.toOption_mask (reading : Reading) :
    reading.mask.toOption = reading.toOption.map Value.mask := by
  cases reading <;> simp [Reading.mask, Reading.toOption]

theorem Reading.mask_ofOption (value : Option Value) :
    (Reading.ofOption value).mask = .ofOption (value.map Value.mask) := by
  cases value <;> simp [Reading.mask, Reading.ofOption]

theorem names_maskGetters (getters : List Getter) :
    (maskGetters getters).map Getter.name = getters.map Getter.name := by
  induction getters with
  | nil => rfl
  | cons getter rest ih =>
    cases getter with
    | mk name reading => simp [maskGetters, Getter.name, ih]

theorem getElem?_maskGetters (getters : List Getter) (slot : Nat) :
    (maskGetters getters)[slot]? =
      getters[slot]?.map fun getter => .mk getter.name getter.reading.mask := by
  induction getters generalizing slot with
  | nil => simp [maskGetters]
  | cons getter rest ih =>
    cases getter with
    | mk name reading =>
      cases slot with
      | zero => simp [maskGetters, Getter.name, Getter.reading]
      | succ slot => simpa [maskGetters] using ih slot

theorem Object.call_mask (target : Object) (slot : Nat) :
    target.mask.call slot = (target.call slot).mask := by
  cases target with
  | mk type typeName getters =>
    simp only [Object.mask, Object.call, Object.getters, getElem?_maskGetters]
    cases getters[slot]? with
    | none => simp [Reading.mask]
    | some getter => rfl

theorem Accessor.invoke_mask (accessor : Accessor) (target : Object) :
    accessor.invoke target.mask = (accessor.invoke target).map Value.mask := by
  simp [Accessor.invoke, target.call_mask, Reading.toOption_mask]

theorem Cache.resolve_mask (cache : Cache) (target : Object) (field : String) :
    cache.resolve target.mask field = cache.resolve target field := by
  cases target with
  | mk type typeName getters =>
    simp only [Cache.resolve, Object.mask, Object.type, Object.names, Object.getters,
      names_maskGetters]

theorem Cache.read_mask (cache : Cache) (target : Object) (field : String) :
    cache.read target.mask field =
      ((cache.read target field).1.map Value.mask, (cache.read target field).2) := by
  simp only [Cache.read, Cache.resolve_mask]
  rcases cache.resolve target field with ⟨_ | accessor, cache'⟩
  · rfl
  · simp [accessor.invoke_mask]

theorem walk_mask (cache : Cache) (v : Value) (path : List String) :
    (walk cache v.mask path).1.toOption = (walk cache v path).1.toOption.map Value.mask ∧
      (walk cache v.mask path).2 = (walk cache v path).2 := by
  induction path generalizing cache v with
  | nil => exact ⟨by simp [walk, Except.toOption], rfl⟩
  | cons segment rest ih =>
    cases v with
    | object target =>
      simp only [Value.mask, walk, Cache.resolve_mask]
      rcases cache.resolve target segment with ⟨_ | accessor, cache'⟩
      · exact ⟨rfl, rfl⟩
      · simp only [accessor.invoke_mask]
        cases accessor.invoke target with
        | none => exact ⟨rfl, rfl⟩
        | some w => exact ih cache' w
    | _ => exact ⟨by simp [walk, Value.mask, Except.toOption], by simp [walk, Value.mask]⟩

theorem Source.lookup_mask (source : Source σ) (name : String) (w : World σ) :
    source.mask.lookup name w = ((source.lookup name w).1.mask, (source.lookup name w).2) := by
  cases source with
  | provider lookup => rfl
  | reflected target => simp [Source.mask, Source.lookup, Cache.read_mask, Reading.mask_ofOption]

/-- A walk through the masked source goes the same way and gives the same
value, masked. -/
theorem Source.traverse_mask (source : Source σ) (path : List String) (w : World σ) :
    (source.mask.traverse path w).1.toOption =
        (source.traverse path w).1.toOption.map Value.mask ∧
      (source.mask.traverse path w).2 = (source.traverse path w).2 := by
  cases path with
  | nil => exact ⟨rfl, rfl⟩
  | cons first rest =>
    simp only [Source.traverse, source.lookup_mask first w]
    rcases source.lookup first w with ⟨reading, w'⟩
    cases reading with
    | absent => exact ⟨rfl, rfl⟩
    | fault f => exact ⟨rfl, rfl⟩
    | value v =>
      obtain ⟨hv, hw⟩ := walk_mask w'.cache v rest
      exact ⟨hv, congrArg (fun cache => { w' with cache }) hw⟩

end Telemetry.Field
