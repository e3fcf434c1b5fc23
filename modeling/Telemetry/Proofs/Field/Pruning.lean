import Mathlib.Order.MinMax
import Telemetry.Proofs.Entries
import Telemetry.Proofs.Field.Faults

/-!
# The depth limit of a rendering only prunes

A rendering leaves objects out that are inside too many others.
`Value.fullJson` and `Value.fullRender` render without such a limit, and
`Value.prune` removes those objects from a value: from a list as its items, from
another object with their getters. Rendering a value is rendering without limit
what is left of it then (`Value.render_prunes`). What is left is told by the
sites of the value, each with the way that leads there.
-/

namespace Telemetry.Json

mutual
/-- The number of objects in each other. -/
def Value.objectLevels : Value → Nat
  | .array items => itemObjectLevels items
  | .object members => memberObjectLevels members + 1
  | _ => 0
def itemObjectLevels : List Value → Nat
  | [] => 0
  | v :: rest => max v.objectLevels (itemObjectLevels rest)
def memberObjectLevels : List (String × Value) → Nat
  | [] => 0
  | (_, v) :: rest => max v.objectLevels (memberObjectLevels rest)
end

end Telemetry.Json

namespace Telemetry.Field

-- ---------------------------------------------------------------------------
-- Rendering without a limit
-- ---------------------------------------------------------------------------

mutual
/-- The JSON form of a value, however many objects are in each other. -/
def Value.fullJson : Value → Except Fault (Option Json.Value)
  | .list items => do return some (.array (← fullItems items))
  | .object target => do return some (.object (← target.fullMembers))
  | scalar => scalar.jsonAt 0
def Object.fullMembers : Object → Except Fault (List (String × Json.Value))
  | .mk _ _ getters => do return Entries.ofList (← fullGetters getters)
def fullItems : List Value → Except Fault (List Json.Value)
  | [] => .ok []
  | v :: rest => do
    match ← v.fullJson with
    | some json => return json :: (← fullItems rest)
    | none => fullItems rest
def fullGetters : List Getter → Except Fault (List (String × Json.Value))
  | [] => .ok []
  | .mk name reading :: rest => do
    match ← reading.fullJson with
    | some json => return (name, json) :: (← fullGetters rest)
    | none => fullGetters rest
def Reading.fullJson : Reading → Except Fault (Option Json.Value)
  | .value v => v.fullJson
  | .absent => .ok none
  | .fault f => .error f
end

def Object.fullRender (target : Object) : Except Fault (Option String) := do
  match ← target.fullMembers with
  | [] => return none
  | members => return some (Json.Value.object members).write

mutual
def Value.fullRender : Value → Except Fault (Option String)
  | .list items => do return bracketed (← fullTexts items)
  | .object target => target.fullRender
  | scalar => scalar.render
def fullTexts : List Value → Except Fault (List String)
  | [] => .ok []
  | v :: rest => do
    match ← v.fullRender with
    | some s => return s :: (← fullTexts rest)
    | none => fullTexts rest
end

-- ---------------------------------------------------------------------------
-- Pruning
-- ---------------------------------------------------------------------------

mutual
/-- The value without the objects in it that are inside `room` others; nothing
if there is no room for the value itself. -/
def Value.prune (room : Nat) : Value → Option Value
  | .list items => some (.list (pruneItems room items))
  | .object target => (target.prune room).map .object
  | scalar => some scalar
def Object.prune (room : Nat) : Object → Option Object
  | .mk type typeName getters =>
    match room with
    | 0 => none
    | room + 1 => some (.mk type typeName (pruneGetters room getters))
def pruneItems (room : Nat) : List Value → List Value
  | [] => []
  | v :: rest => (v.prune room).toList ++ pruneItems room rest
def pruneGetters (room : Nat) : List Getter → List Getter
  | [] => []
  | .mk name reading :: rest =>
    ((reading.prune room).map (Getter.mk name)).toList ++ pruneGetters room rest
def Reading.prune (room : Nat) : Reading → Option Reading
  | .value v => (v.prune room).map .value
  | reading => some reading
end

mutual
def Value.levels : Value → Nat
  | .list items => itemLevels items
  | .object target => target.levels
  | _ => 0
def Object.levels : Object → Nat
  | .mk _ _ getters => getterLevels getters + 1
def itemLevels : List Value → Nat
  | [] => 0
  | v :: rest => max v.levels (itemLevels rest)
def getterLevels : List Getter → Nat
  | [] => 0
  | .mk _ reading :: rest => max reading.levels (getterLevels rest)
def Reading.levels : Reading → Nat
  | .value v => v.levels
  | _ => 0
end

def rendered (form : α → Except Fault (Option β)) : Option α → Except Fault (Option β)
  | some kept => form kept
  | none => .ok none

mutual
theorem Value.jsonAt_eq (v : Value) {depth room : Nat} (h : depth + room = maxRenderDepth) :
    v.jsonAt depth = rendered Value.fullJson (v.prune room) := by
  cases v with
  | list items =>
    simp only [Value.jsonAt, Value.prune, rendered, Value.fullJson, jsonItems_eq items h]
  | object target =>
    simp only [Value.jsonAt, Value.prune, target.membersAt_eq h]
    cases target.prune room with
    | none => rfl
    | some kept =>
      simp only [rendered, Option.map_some, Value.fullJson]
      cases kept.fullMembers <;> rfl
  | _ => rfl
theorem Object.membersAt_eq (target : Object) {depth room : Nat}
    (h : depth + room = maxRenderDepth) :
    target.membersAt depth =
      rendered (fun kept => return some (← kept.fullMembers)) (target.prune room) := by
  cases target with
  | mk type typeName getters =>
    cases room with
    | zero =>
      have hdeep : maxRenderDepth ≤ depth := Nat.le_of_eq h.symm
      simp only [Object.membersAt, if_pos hdeep, Object.prune, rendered]
    | succ room =>
      have hroom : ¬ maxRenderDepth ≤ depth := by omega
      have hgetters : jsonMembers (depth + 1) getters = fullGetters (pruneGetters room getters) :=
        jsonMembers_eq getters (by omega)
      simp only [Object.membersAt, if_neg hroom, Object.prune, rendered, Object.fullMembers,
        hgetters, bind_assoc, pure_bind]
theorem jsonItems_eq (items : List Value) {depth room : Nat} (h : depth + room = maxRenderDepth) :
    jsonItems depth items = fullItems (pruneItems room items) := by
  cases items with
  | nil => rfl
  | cons v rest =>
    simp only [jsonItems, pruneItems, v.jsonAt_eq h, jsonItems_eq rest h]
    cases v.prune room with
    | none => rfl
    | some kept => rfl
theorem jsonMembers_eq (getters : List Getter) {depth room : Nat}
    (h : depth + room = maxRenderDepth) :
    jsonMembers depth getters = fullGetters (pruneGetters room getters) := by
  cases getters with
  | nil => rfl
  | cons getter rest =>
    cases getter with
    | mk name reading =>
      simp only [jsonMembers, pruneGetters, reading.jsonAt_eq h, jsonMembers_eq rest h]
      cases reading.prune room with
      | none => rfl
      | some kept => rfl
theorem Reading.jsonAt_eq (reading : Reading) {depth room : Nat}
    (h : depth + room = maxRenderDepth) :
    reading.jsonAt depth = rendered Reading.fullJson (reading.prune room) := by
  cases reading with
  | value v =>
    simp only [Reading.jsonAt, Reading.prune, v.jsonAt_eq h]
    cases v.prune room with
    | none => rfl
    | some kept => rfl
  | absent => rfl
  | fault f => rfl
end

theorem Object.render_eq (target : Object) {room : Nat} (h : room = maxRenderDepth) :
    target.render = rendered Object.fullRender (target.prune room) := by
  rw [Object.render, target.membersAt_eq ((Nat.zero_add room).trans h)]
  cases target.prune room with
  | none => rfl
  | some kept =>
    simp only [rendered, Object.fullRender, bind_assoc, pure_bind]
    rcases kept.fullMembers with f | (_ | _) <;> rfl

mutual
theorem Value.render_eq (v : Value) {room : Nat} (h : room = maxRenderDepth) :
    v.render = rendered Value.fullRender (v.prune room) := by
  cases v with
  | list items =>
    simp only [Value.render, Value.prune, rendered, Value.fullRender, renderItems_eq items h]
  | object target =>
    simp only [Value.render, Value.prune, target.render_eq h]
    cases target.prune room with
    | none => rfl
    | some kept => rfl
  | _ => rfl
theorem renderItems_eq (items : List Value) {room : Nat} (h : room = maxRenderDepth) :
    renderItems items = fullTexts (pruneItems room items) := by
  cases items with
  | nil => rfl
  | cons v rest =>
    simp only [renderItems, pruneItems, v.render_eq h, renderItems_eq rest h]
    cases v.prune room with
    | none => rfl
    | some kept => rfl
end

-- ---------------------------------------------------------------------------
-- Levels of objects
-- ---------------------------------------------------------------------------

mutual
theorem Value.prune_eq_self (v : Value) {room : Nat} (h : v.levels ≤ room) :
    v.prune room = some v := by
  cases v with
  | list items => simp only [Value.prune, pruneItems_eq_self items h]
  | object target => simp only [Value.prune, target.prune_eq_self h, Option.map_some]
  | _ => rfl
theorem Object.prune_eq_self (target : Object) {room : Nat} (h : target.levels ≤ room) :
    target.prune room = some target := by
  cases target with
  | mk type typeName getters =>
    cases room with
    | zero => cases h
    | succ room =>
      have hgetters : getterLevels getters ≤ room := Nat.le_of_succ_le_succ h
      simp only [Object.prune, pruneGetters_eq_self getters hgetters]
theorem pruneItems_eq_self (items : List Value) {room : Nat} (h : itemLevels items ≤ room) :
    pruneItems room items = items := by
  cases items with
  | nil => rfl
  | cons v rest =>
    obtain ⟨hv, hrest⟩ := Nat.max_le.mp h
    rw [pruneItems, v.prune_eq_self hv, pruneItems_eq_self rest hrest]
    rfl
theorem pruneGetters_eq_self (getters : List Getter) {room : Nat}
    (h : getterLevels getters ≤ room) : pruneGetters room getters = getters := by
  cases getters with
  | nil => rfl
  | cons getter rest =>
    cases getter with
    | mk name reading =>
      obtain ⟨hreading, hrest⟩ := Nat.max_le.mp h
      rw [pruneGetters, reading.prune_eq_self hreading, pruneGetters_eq_self rest hrest]
      rfl
theorem Reading.prune_eq_self (reading : Reading) {room : Nat} (h : reading.levels ≤ room) :
    reading.prune room = some reading := by
  cases reading with
  | value v => simp only [Reading.prune, v.prune_eq_self h, Option.map_some]
  | absent => rfl
  | fault f => rfl
end

mutual
theorem Value.levels_prune (v : Value) {room : Nat} {kept : Value} (h : v.prune room = some kept) :
    kept.levels ≤ room := by
  cases v with
  | list items =>
    cases h
    exact itemLevels_pruneItems items room
  | object target =>
    obtain ⟨object, hobject, rfl⟩ := Option.map_eq_some_iff.mp h
    exact target.levels_prune hobject
  | _ =>
    cases h
    exact Nat.zero_le _
theorem Object.levels_prune (target : Object) {room : Nat} {kept : Object}
    (h : target.prune room = some kept) : kept.levels ≤ room := by
  cases target with
  | mk type typeName getters =>
    cases room with
    | zero => cases h
    | succ room =>
      cases h
      exact Nat.succ_le_succ (getterLevels_pruneGetters getters room)
theorem itemLevels_pruneItems (items : List Value) (room : Nat) :
    itemLevels (pruneItems room items) ≤ room := by
  cases items with
  | nil => exact Nat.zero_le _
  | cons v rest =>
    have hrest := itemLevels_pruneItems rest room
    rw [pruneItems]
    cases hv : v.prune room with
    | none => exact hrest
    | some kept => exact Nat.max_le.mpr ⟨v.levels_prune hv, hrest⟩
theorem getterLevels_pruneGetters (getters : List Getter) (room : Nat) :
    getterLevels (pruneGetters room getters) ≤ room := by
  cases getters with
  | nil => exact Nat.zero_le _
  | cons getter rest =>
    cases getter with
    | mk name reading =>
      have hrest := getterLevels_pruneGetters rest room
      rw [pruneGetters]
      cases hreading : reading.prune room with
      | none => exact hrest
      | some kept => exact Nat.max_le.mpr ⟨reading.levels_prune hreading, hrest⟩
theorem Reading.levels_prune (reading : Reading) {room : Nat} {kept : Reading}
    (h : reading.prune room = some kept) : kept.levels ≤ room := by
  cases reading with
  | value v =>
    obtain ⟨value, hvalue, rfl⟩ := Option.map_eq_some_iff.mp h
    exact v.levels_prune hvalue
  | _ =>
    cases h
    exact Nat.zero_le _
end

-- ---------------------------------------------------------------------------
-- Objects in each other in a JSON value
-- ---------------------------------------------------------------------------

theorem itemObjectLevels_strings (names : List String) :
    Json.itemObjectLevels (names.map .string) = 0 := by
  induction names with
  | nil => rfl
  | cons name names ih =>
    rw [List.map_cons, Json.itemObjectLevels, ih]
    rfl

theorem memberObjectLevels_le_iff {members : List (String × Json.Value)} {levels : Nat} :
    Json.memberObjectLevels members ≤ levels ↔
      ∀ member ∈ members, member.2.objectLevels ≤ levels := by
  induction members with
  | nil => simp [Json.memberObjectLevels]
  | cons member members ih =>
    rw [Json.memberObjectLevels, Nat.max_le, ih, List.forall_mem_cons]

mutual
theorem Value.objectLevels_fullJson (v : Value) {json : Json.Value}
    (h : v.fullJson = .ok (some json)) : json.objectLevels ≤ v.levels := by
  cases v with
  | list items =>
    obtain ⟨forms, hforms, hjson⟩ := bind_eq_ok_iff.mp h
    cases hjson
    exact itemObjectLevels_fullItems items hforms
  | object target =>
    obtain ⟨members, hmembers, hjson⟩ := bind_eq_ok_iff.mp h
    cases hjson
    exact target.objectLevels_fullMembers hmembers
  | float x =>
    obtain ⟨number, -, rfl⟩ := Option.map_eq_some_iff.mp (Except.ok.inj h)
    exact Nat.le_refl 0
  | bytes bs =>
    obtain ⟨s, -, rfl⟩ := Option.map_eq_some_iff.mp (Except.ok.inj h)
    exact Nat.le_refl 0
  | keys names =>
    cases h
    exact Nat.le_of_eq (itemObjectLevels_strings names)
  | _ =>
    cases h
    exact Nat.le_refl 0
theorem Object.objectLevels_fullMembers (target : Object) {members : List (String × Json.Value)}
    (h : target.fullMembers = .ok members) :
    Json.memberObjectLevels members + 1 ≤ target.levels := by
  cases target with
  | mk type typeName getters =>
    obtain ⟨pairs, hpairs, hmembers⟩ := bind_eq_ok_iff.mp h
    cases hmembers
    have hlevels := memberObjectLevels_fullGetters getters hpairs
    rw [memberObjectLevels_le_iff] at hlevels
    refine Nat.succ_le_succ (memberObjectLevels_le_iff.mpr fun member hmember => ?_)
    exact hlevels member (Entries.mem_of_mem_ofList hmember)
theorem itemObjectLevels_fullItems (items : List Value) {forms : List Json.Value}
    (h : fullItems items = .ok forms) : Json.itemObjectLevels forms ≤ itemLevels items := by
  cases items with
  | nil =>
    cases h
    exact Nat.le_refl 0
  | cons v rest =>
    obtain ⟨form?, hform, h⟩ := bind_eq_ok_iff.mp h
    cases form? with
    | none => exact le_max_of_le_right (itemObjectLevels_fullItems rest h)
    | some form =>
      obtain ⟨later, hlater, hforms⟩ := bind_eq_ok_iff.mp h
      cases hforms
      exact max_le_max (v.objectLevels_fullJson hform) (itemObjectLevels_fullItems rest hlater)
theorem memberObjectLevels_fullGetters (getters : List Getter)
    {members : List (String × Json.Value)} (h : fullGetters getters = .ok members) :
    Json.memberObjectLevels members ≤ getterLevels getters := by
  cases getters with
  | nil =>
    cases h
    exact Nat.le_refl 0
  | cons getter rest =>
    cases getter with
    | mk name reading =>
      obtain ⟨form?, hform, h⟩ := bind_eq_ok_iff.mp h
      cases form? with
      | none => exact le_max_of_le_right (memberObjectLevels_fullGetters rest h)
      | some form =>
        obtain ⟨later, hlater, hmembers⟩ := bind_eq_ok_iff.mp h
        cases hmembers
        exact max_le_max (reading.objectLevels_fullJson hform)
          (memberObjectLevels_fullGetters rest hlater)
theorem Reading.objectLevels_fullJson (reading : Reading) {json : Json.Value}
    (h : reading.fullJson = .ok (some json)) : json.objectLevels ≤ reading.levels := by
  cases reading with
  | value v => exact v.objectLevels_fullJson h
  | absent => cases h
  | fault f => cases h
end

-- ---------------------------------------------------------------------------
-- What is left
-- ---------------------------------------------------------------------------

inductive Step where
  /-- To an item of a list. -/
  | item
  /-- To what a getter of an object gives. -/
  | getter (name : String)
  deriving DecidableEq, Repr

def Step.isGetter : Step → Bool
  | .item => false
  | .getter _ => true

inductive Spot where
  | scalar (v : Value)
  | list
  | object (type : TypeKey) (typeName : String)
  | absent
  | fault (f : Fault)

/-- What stands somewhere in a value, and the steps that lead there, the last
one first. -/
structure Site where
  way : List Step
  spot : Spot

/-- The number of objects that a way goes through. -/
def enclosing (way : List Step) : Nat :=
  way.countP Step.isGetter

@[simp] theorem enclosing_item (way : List Step) : enclosing (.item :: way) = enclosing way :=
  List.countP_cons_of_neg (by decide)

@[simp] theorem enclosing_getter (name : String) (way : List Step) :
    enclosing (.getter name :: way) = enclosing way + 1 :=
  List.countP_cons_of_pos rfl

/-- Neither an object that is inside `limit` others nor anything inside of one. -/
def Site.isWithin (limit : Nat) (site : Site) : Bool :=
  match site.spot with
  | .object _ _ => enclosing site.way < limit
  | _ => enclosing site.way ≤ limit

mutual
def Value.sites (way : List Step) : Value → List Site
  | .list items => ⟨way, .list⟩ :: itemSites way items
  | .object target => target.sites way
  | scalar => [⟨way, .scalar scalar⟩]
def Object.sites (way : List Step) : Object → List Site
  | .mk type typeName getters => ⟨way, .object type typeName⟩ :: getterSites way getters
def itemSites (way : List Step) : List Value → List Site
  | [] => []
  | v :: rest => v.sites (.item :: way) ++ itemSites way rest
def getterSites (way : List Step) : List Getter → List Site
  | [] => []
  | .mk name reading :: rest => reading.sites (.getter name :: way) ++ getterSites way rest
def Reading.sites (way : List Step) : Reading → List Site
  | .value v => v.sites way
  | .absent => [⟨way, .absent⟩]
  | .fault f => [⟨way, .fault f⟩]
end

mutual
theorem Value.enclosing_le (v : Value) {way : List Step} {site : Site} (h : site ∈ v.sites way) :
    enclosing way ≤ enclosing site.way := by
  cases v with
  | list items =>
    rcases List.mem_cons.mp h with rfl | h
    · exact Nat.le_refl _
    · exact itemSites_enclosing_le items h
  | object target => exact target.enclosing_le h
  | _ =>
    obtain rfl := List.mem_singleton.mp h
    exact Nat.le_refl _
theorem Object.enclosing_le (target : Object) {way : List Step} {site : Site}
    (h : site ∈ target.sites way) : enclosing way ≤ enclosing site.way := by
  cases target with
  | mk type typeName getters =>
    rcases List.mem_cons.mp h with rfl | h
    · exact Nat.le_refl _
    · exact Nat.le_of_succ_le (getterSites_enclosing_lt getters h)
theorem itemSites_enclosing_le (items : List Value) {way : List Step} {site : Site}
    (h : site ∈ itemSites way items) : enclosing way ≤ enclosing site.way := by
  cases items with
  | nil => cases h
  | cons v rest =>
    rcases List.mem_append.mp h with h | h
    · simpa using v.enclosing_le h
    · exact itemSites_enclosing_le rest h
theorem getterSites_enclosing_lt (getters : List Getter) {way : List Step} {site : Site}
    (h : site ∈ getterSites way getters) : enclosing way < enclosing site.way := by
  cases getters with
  | nil => cases h
  | cons getter rest =>
    cases getter with
    | mk name reading =>
      rcases List.mem_append.mp h with h | h
      · have hle := reading.enclosing_le h
        rwa [enclosing_getter] at hle
      · exact getterSites_enclosing_lt rest h
theorem Reading.enclosing_le (reading : Reading) {way : List Step} {site : Site}
    (h : site ∈ reading.sites way) : enclosing way ≤ enclosing site.way := by
  cases reading with
  | value v => exact v.enclosing_le h
  | _ =>
    obtain rfl := List.mem_singleton.mp h
    exact Nat.le_refl _
end

theorem Site.isWithin_le {limit : Nat} {site : Site} (h : site.isWithin limit = true) :
    enclosing site.way ≤ limit := by
  unfold isWithin at h
  split at h
  · exact Nat.le_of_lt (of_decide_eq_true h)
  · exact of_decide_eq_true h

mutual
/-- Pruning leaves the sites that are within the limit and no others. -/
theorem Value.sites_prune (v : Value) {way : List Step} {room limit : Nat}
    (h : enclosing way + room = limit) :
    (v.prune room).toList.flatMap (·.sites way) = (v.sites way).filter (·.isWithin limit) := by
  have hway : enclosing way ≤ limit := h ▸ Nat.le_add_right ..
  cases v with
  | list items =>
    have hhere : Site.isWithin limit ⟨way, .list⟩ = true := decide_eq_true hway
    simp only [Value.prune, Value.sites, List.filter_cons_of_pos hhere,
      ← itemSites_pruneItems items h]
    exact List.append_nil _
  | object target =>
    have htarget := target.sites_prune h
    simp only [Value.prune, Value.sites, ← htarget]
    cases target.prune room with
    | none => rfl
    | some kept => rfl
  | _ => simp [Value.prune, Value.sites, Site.isWithin, hway]
theorem Object.sites_prune (target : Object) {way : List Step} {room limit : Nat}
    (h : enclosing way + room = limit) :
    (target.prune room).toList.flatMap (·.sites way) =
      (target.sites way).filter (·.isWithin limit) := by
  cases target with
  | mk type typeName getters =>
    cases room with
    | zero =>
      refine (List.filter_eq_nil_iff.mpr fun site hsite hwithin => ?_).symm
      rcases List.mem_cons.mp hsite with rfl | hsite
      · exact Nat.lt_irrefl _ (h ▸ of_decide_eq_true hwithin)
      · have hdeep := getterSites_enclosing_lt getters hsite
        have hle := Site.isWithin_le hwithin
        omega
    | succ room =>
      have hway : enclosing way < limit := by omega
      have hhere : Site.isWithin limit ⟨way, .object type typeName⟩ = true := decide_eq_true hway
      simp only [Object.prune, Object.sites, List.filter_cons_of_pos hhere,
        ← getterSites_pruneGetters getters h]
      exact List.append_nil _
theorem itemSites_pruneItems (items : List Value) {way : List Step} {room limit : Nat}
    (h : enclosing way + room = limit) :
    itemSites way (pruneItems room items) = (itemSites way items).filter (·.isWithin limit) := by
  cases items with
  | nil => rfl
  | cons v rest =>
    have hv : (v.prune room).toList.flatMap (·.sites (.item :: way)) =
        (v.sites (.item :: way)).filter (·.isWithin limit) := v.sites_prune (by simpa using h)
    rw [pruneItems, itemSites, List.filter_append, ← hv, ← itemSites_pruneItems rest h]
    cases v.prune room with
    | none => rfl
    | some kept => simp [itemSites]
theorem getterSites_pruneGetters (getters : List Getter) {way : List Step} {room limit : Nat}
    (h : enclosing way + (room + 1) = limit) :
    getterSites way (pruneGetters room getters) =
      (getterSites way getters).filter (·.isWithin limit) := by
  cases getters with
  | nil => rfl
  | cons getter rest =>
    cases getter with
    | mk name reading =>
      have hinside : enclosing (.getter name :: way) + room = limit := by
        rw [enclosing_getter]
        omega
      rw [pruneGetters, getterSites, List.filter_append, ← reading.sites_prune hinside,
        ← getterSites_pruneGetters rest h]
      cases reading.prune room with
      | none => rfl
      | some kept => simp [getterSites]
theorem Reading.sites_prune (reading : Reading) {way : List Step} {room limit : Nat}
    (h : enclosing way + room = limit) :
    (reading.prune room).toList.flatMap (·.sites way) =
      (reading.sites way).filter (·.isWithin limit) := by
  have hway : enclosing way ≤ limit := h ▸ Nat.le_add_right ..
  cases reading with
  | value v =>
    have hv := v.sites_prune h
    simp only [Reading.prune, Reading.sites, ← hv]
    cases v.prune room with
    | none => rfl
    | some kept => rfl
  | _ => simp [Reading.prune, Reading.sites, Site.isWithin, hway]
end

-- ---------------------------------------------------------------------------
-- Renderings
-- ---------------------------------------------------------------------------

theorem Value.exists_prune (v : Value) (room : Nat) : ∃ kept, v.prune (room + 1) = some kept := by
  cases v with
  | object target =>
    cases target with
    | mk type typeName getters => exact ⟨_, rfl⟩
  | _ => exact ⟨_, rfl⟩

/-- A value is rendered as what is left of it, without a limit, when the objects
in it that are inside 16 others are removed; a getter that faults there is not
met. All that stands elsewhere in it is left, in order. What is left has at most
16 objects in each other, and so has its JSON, of which the text of an object
is made. A value with no more than that is rendered in full. -/
theorem Value.render_prunes (v : Value) :
    ∃ kept, v.prune 16 = some kept ∧
      v.toJson = kept.fullJson ∧ v.render = kept.fullRender ∧
      kept.sites [] = (v.sites []).filter (·.isWithin 16) ∧
      kept.levels ≤ 16 ∧
      (∀ json, v.toJson = .ok (some json) → json.objectLevels ≤ 16) ∧
      (∀ target text, v = .object target → v.render = .ok (some text) →
        ∃ json, v.toJson = .ok (some json) ∧ text = json.write) ∧
      (v.levels ≤ 16 → kept = v ∧ v.toJson = v.fullJson ∧ v.render = v.fullRender) := by
  obtain ⟨kept, hkept⟩ := v.exists_prune 15
  have hjson : v.toJson = kept.fullJson := by
    rw [toJson, v.jsonAt_eq (Nat.zero_add maxRenderDepth)]
    exact congrArg (rendered fullJson) hkept
  have hrender : v.render = kept.fullRender := by
    rw [v.render_eq rfl]
    exact congrArg (rendered fullRender) hkept
  have hlevels : kept.levels ≤ 16 := v.levels_prune hkept
  have hsites : (v.prune 16).toList.flatMap (·.sites []) = (v.sites []).filter (·.isWithin 16) :=
    v.sites_prune rfl
  refine ⟨kept, hkept, hjson, hrender, ?_, hlevels, ?_, ?_, ?_⟩
  · rw [← hsites, hkept]
    exact (List.append_nil _).symm
  · intro json h
    exact (kept.objectLevels_fullJson (hjson.symm.trans h)).trans hlevels
  · rintro target text rfl h
    rw [render] at h
    obtain ⟨members, hmembers, rfl⟩ := Object.render_eq_some h
    exact ⟨_, hmembers, rfl⟩
  · intro hsmall
    obtain rfl : kept = v := Option.some.inj (hkept.symm.trans (v.prune_eq_self hsmall))
    exact ⟨rfl, hjson, hrender⟩

end Telemetry.Field
