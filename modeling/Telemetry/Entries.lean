/-!
# Entries

Association lists that keep the order in which keys first appeared. Writing
a key again replaces its value where it stands, so a list built by `put`
names each key once.
-/

namespace Telemetry.Entries

variable {κ α : Type} [DecidableEq κ]

def get? : List (κ × α) → κ → Option α
  | [], _ => none
  | (k, a) :: rest, key => if k = key then some a else get? rest key

/-- The entries with `key` holding `value`, at its place or at the end. -/
def put : List (κ × α) → κ → α → List (κ × α)
  | [], key, value => [(key, value)]
  | (k, a) :: rest, key, value =>
    if k = key then (k, value) :: rest else (k, a) :: put rest key value

def ofList (pairs : List (κ × α)) : List (κ × α) :=
  pairs.foldl (fun entries pair => put entries pair.1 pair.2) []

/-- The entry before the first of those that its rank does not come after. -/
def place (rank : κ → Nat) (entry : κ × α) : List (κ × α) → List (κ × α)
  | [] => [entry]
  | other :: rest =>
    if rank entry.1 ≤ rank other.1 then entry :: other :: rest
    else other :: place rank entry rest

/-- The entries by the rank of their keys. Where the rank is the same, they stay
in their order. -/
def byRank (rank : κ → Nat) : List (κ × α) → List (κ × α)
  | [] => []
  | entry :: rest => place rank entry (byRank rank rest)

theorem get?_put (entries : List (κ × α)) (key : κ) (value : α) (other : κ) :
    get? (put entries key value) other = if key = other then some value else get? entries other := by
  induction entries with
  | nil => simp [put, get?]
  | cons head rest ih =>
    obtain ⟨k, a⟩ := head
    simp only [put]
    split <;> simp only [get?, ih] <;> split <;> simp_all [eq_comm]

theorem keys_put (entries : List (κ × α)) (key : κ) (value : α) :
    (put entries key value).map (·.1) =
      if key ∈ entries.map (·.1) then entries.map (·.1) else entries.map (·.1) ++ [key] := by
  induction entries with
  | nil => simp [put]
  | cons head rest ih =>
    obtain ⟨k, a⟩ := head
    simp only [put]
    split
    · simp_all
    · simp only [List.map_cons, ih, List.mem_cons]
      split <;> simp_all [eq_comm]

end Telemetry.Entries
