import Telemetry.Proofs.Json.StringForms

/-!
# Only documents are read

Whatever the reader accepts is a document, the one it denotes the value of
(`exists_document`). Where a value is read, a spelling stands
(`value_form`), by induction on the number of bytes that are left: the values
in an array or an object are read from fewer of them. What the reader makes of
a spelling is known, so each part that is found takes the reader to the state
after it.
-/

namespace Telemetry.Json

variable {stack : List Frame} {bytes rest : List UInt8} {v : Value} {b : UInt8} {n : Nat}

-- ---------------------------------------------------------------------------
-- White space
-- ---------------------------------------------------------------------------

theorem exists_blank (h : isSpace b = true) : ∃ blank : Blank, b = blank.byte := by
  have hb : ((b = 0x20 ∨ b = 0x09) ∨ b = 0x0a) ∨ b = 0x0d := by simpa [isSpace] using h
  rcases hb with ((rfl | rfl) | rfl) | rfl
  · exact ⟨.space, rfl⟩
  · exact ⟨.tab, rfl⟩
  · exact ⟨.newline, rfl⟩
  · exact ⟨.return, rfl⟩

theorem exists_gap (bytes : List UInt8) : ∃ (gap : Gap) (rest : List UInt8),
    bytes = gap.bytes ++ rest ∧ ∀ b ∈ rest.head?, ¬ isSpace b = true := by
  induction bytes with
  | nil => exact ⟨[], [], rfl, by simp⟩
  | cons b bytes ih =>
    by_cases hb : isSpace b = true
    · obtain ⟨blank, rfl⟩ := exists_blank hb
      obtain ⟨gap, rest, rfl, hrest⟩ := ih
      exact ⟨blank :: gap, rest, rfl, hrest⟩
    · refine ⟨[], b :: bytes, rfl, ?_⟩
      rintro b ⟨⟩
      exact hb

/-- Where white space changes nothing, the reader gets to a byte that is none. -/
theorem exists_token {s : State} (hskips : Skips .bytes s) (hends : finish {} s = .error (.ended {}))
    (h : reads .bytes s bytes = some v) :
    ∃ (gap : Gap) (b : UInt8) (rest : List UInt8), bytes = gap.bytes ++ b :: rest ∧
      ¬ isSpace b = true ∧ reads .bytes s (b :: rest) = some v := by
  obtain ⟨gap, rest, rfl, hrest⟩ := exists_gap bytes
  rw [reads_gap hskips] at h
  rcases rest with _ | ⟨b, rest⟩
  · rw [reads, hends] at h
    cases h
  · exact ⟨gap, b, rest, rfl, hrest b rfl, h⟩

theorem step_value (hspace : ¬ isSpace b = true) :
    step .bytes ⟨stack, .value⟩ b = start stack b :=
  if_neg hspace

theorem reads_start {s : State} (hspace : ¬ isSpace b = true)
    (h : step .bytes s b = start stack b) :
    reads .bytes s (b :: bytes) = reads .bytes ⟨stack, .value⟩ (b :: bytes) := by
  simp only [reads, h, step_value hspace]

theorem gap_append (first second : Gap) :
    Gap.bytes (first ++ second) = first.bytes ++ second.bytes :=
  List.map_append

-- ---------------------------------------------------------------------------
-- Values
-- ---------------------------------------------------------------------------

/-- A spelling stands in front, perhaps after white space, and from the state
after it the reader gets to `v`. -/
def ReadsValue (stack : List Frame) (bytes : List UInt8) (v : Value) : Prop :=
  ∃ (gap : Gap) (s : Spelling) (rest : List UInt8) (x : Value),
    bytes = gap.bytes ++ (s.bytes ++ rest) ∧ reads .bytes (complete stack x) rest = some v

def ValuesRead (n : Nat) : Prop :=
  ∀ {stack : List Frame} {bytes : List UInt8} {v : Value}, bytes.length < n →
    reads .bytes ⟨stack, .value⟩ bytes = some v → ReadsValue stack bytes v

theorem word_form {next : UInt8} {letters : List UInt8} {meant : Value}
    (h : reads .bytes ⟨stack, .word next letters meant⟩ bytes = some v) :
    ∃ rest, bytes = next :: (letters ++ rest) ∧ Ends rest := by
  induction letters generalizing next bytes with
  | nil =>
    rcases bytes with _ | ⟨b, bytes⟩
    · cases h
    obtain ⟨after, hstep, hafter⟩ := reads_cons h
    replace hstep : wordStep stack next [] meant b = .ok after := hstep
    rw [wordStep] at hstep
    split at hstep
    · cases hstep
    · rename_i hb
      obtain rfl := not_ne_iff.mp hb
      cases hstep
      exact ⟨bytes, rfl, ends_of_reads hafter⟩
  | cons letter letters ih =>
    rcases bytes with _ | ⟨b, bytes⟩
    · cases h
    obtain ⟨after, hstep, hafter⟩ := reads_cons h
    replace hstep : wordStep stack next (letter :: letters) meant b = .ok after := hstep
    rw [wordStep] at hstep
    split at hstep
    · cases hstep
    · rename_i hb
      obtain rfl := not_ne_iff.mp hb
      cases hstep
      obtain ⟨rest, rfl, hends⟩ := ih hafter
      exact ⟨rest, rfl, hends⟩

-- ---------------------------------------------------------------------------
-- Arrays
-- ---------------------------------------------------------------------------

theorem skips_arrayTail (items : List Value) : Skips .bytes ⟨stack, .arrayTail items⟩ := by
  intro b hb
  simp only [step, arrayTailStep, hb, if_true]

theorem item_form (hvalues : ValuesRead n) {items : List Value} (hlength : bytes.length < n)
    (h : reads .bytes ⟨stack, .arrayNext items⟩ bytes = some v) :
    ∃ (before : Gap) (s : Spelling) (rest : List UInt8) (x : Value),
      bytes = before.bytes ++ (s.bytes ++ rest) ∧
        reads .bytes ⟨stack, .arrayTail (x :: items)⟩ rest = some v := by
  obtain ⟨before, b, rest, rfl, hspace, hb⟩ := exists_token Waits.arrayNext.skips rfl h
  by_cases hclose : b = 0x5d
  · subst hclose
    obtain ⟨next, hstep, -⟩ := reads_cons hb
    cases hstep
  have hstart : step .bytes ⟨stack, .arrayNext items⟩ b = start (.array items :: stack) b :=
    (if_neg hspace).trans (if_neg (by simpa using hclose))
  rw [reads_start hspace hstart] at hb
  rw [List.length_append] at hlength
  obtain ⟨gap, s, rest', x, hbytes, hrest⟩ := hvalues (by omega) hb
  exact ⟨before ++ gap, s, rest', x, by rw [hbytes, gap_append, List.append_assoc], hrest⟩

theorem laterItems_form (hvalues : ValuesRead n) {items : List Value} (hlength : bytes.length < n)
    (h : reads .bytes ⟨stack, .arrayTail items⟩ bytes = some v) :
    ∃ (after : Gap) (later : List Item) (rest : List UInt8),
      bytes = after.bytes ++ (itemBytes [0x2c] later ++ 0x5d :: rest) := by
  induction hm : bytes.length using Nat.strongRecOn generalizing bytes items with
  | ind m ih =>
    subst hm
    obtain ⟨after, b, rest, rfl, hspace, hb⟩ := exists_token (skips_arrayTail items) rfl h
    obtain ⟨next, hstep, hnext⟩ := reads_cons hb
    replace hstep : arrayTailStep stack items b = .ok next := hstep
    rw [arrayTailStep, if_neg hspace] at hstep
    split at hstep
    · rename_i hcomma
      obtain rfl := beq_iff_eq.mp hcomma
      cases hstep
      simp only [List.length_append, List.length_cons] at hlength ih
      obtain ⟨before, s, rest, x, rfl, hrest⟩ := item_form hvalues (by omega) hnext
      simp only [List.length_append] at hlength ih
      obtain ⟨after', later, rest, rfl⟩ := ih rest.length (by omega) (by omega) hrest rfl
      exact ⟨after, .mk before s after' :: later, rest, by simp [itemBytes]⟩
    · split at hstep
      · rename_i hclose
        obtain rfl := beq_iff_eq.mp hclose
        exact ⟨after, [], rest, rfl⟩
      · cases hstep

theorem items_form (hvalues : ValuesRead n) (hlength : bytes.length < n)
    (h : reads .bytes ⟨stack, .arrayStart⟩ bytes = some v) :
    ∃ (gap : Gap) (items : List Item) (rest : List UInt8),
      bytes = gap.bytes ++ (itemBytes [] items ++ 0x5d :: rest) := by
  obtain ⟨gap, b, rest, rfl, hspace, hb⟩ := exists_token Waits.arrayStart.skips rfl h
  by_cases hclose : b = 0x5d
  · subst hclose
    exact ⟨gap, [], rest, rfl⟩
  have hstart : step .bytes ⟨stack, .arrayStart⟩ b = start (.array [] :: stack) b :=
    (if_neg hspace).trans (if_neg (by simpa using hclose))
  rw [reads_start hspace hstart] at hb
  rw [List.length_append] at hlength
  obtain ⟨before, s, rest', x, hbytes, hrest⟩ := hvalues (by omega) hb
  have hshorter := congrArg List.length hbytes
  simp only [List.length_append] at hshorter
  obtain ⟨after, later, rest, rfl⟩ := laterItems_form hvalues (by omega) hrest
  exact ⟨gap, .mk before s after :: later, rest, by rw [hbytes]; simp [itemBytes]⟩

-- ---------------------------------------------------------------------------
-- Objects
-- ---------------------------------------------------------------------------

theorem skips_objectTail (members : List (String × Value)) :
    Skips .bytes ⟨stack, .objectTail members⟩ := by
  intro b hb
  simp only [step, objectTailStep, hb, if_true]

/-- A member from the quote of its key on. -/
theorem member_form (hvalues : ValuesRead n) {members : List (String × Value)}
    (hlength : bytes.length < n)
    (h : reads .bytes ⟨stack, .string (.key members) [] .none⟩ bytes = some v) :
    ∃ (key : List Piece) (beforeColon afterColon : Gap) (s : Spelling) (rest : List UInt8)
      (k : String) (x : Value),
      bytes = pieceBytes key ++ 0x22 :: (beforeColon.bytes ++
          0x3a :: (afterColon.bytes ++ (s.bytes ++ rest))) ∧
        reads .bytes ⟨stack, .objectTail (Entries.put members k x)⟩ rest = some v := by
  obtain ⟨key, rest, rfl⟩ := string_form h
  rw [reads_string] at h
  obtain ⟨k, hk, hrest⟩ := Option.bind_eq_some_iff.mp h
  obtain ⟨beforeColon, b, rest, rfl, hspace, hb⟩ := exists_token Waits.colon.skips rfl hrest
  obtain ⟨next, hstep, hnext⟩ := reads_cons hb
  simp only [step, if_neg hspace] at hstep
  split at hstep
  · rename_i hcolon
    obtain rfl := beq_iff_eq.mp hcolon
    cases hstep
    simp only [List.length_append, List.length_cons] at hlength
    obtain ⟨afterColon, s, rest, x, rfl, hafter⟩ := hvalues (by omega) hnext
    exact ⟨key, beforeColon, afterColon, s, rest, k, x, rfl, hafter⟩
  · cases hstep

theorem laterMembers_form (hvalues : ValuesRead n) {members : List (String × Value)}
    (hlength : bytes.length < n)
    (h : reads .bytes ⟨stack, .objectTail members⟩ bytes = some v) :
    ∃ (after : Gap) (later : List Member) (rest : List UInt8),
      bytes = after.bytes ++ (memberBytes [0x2c] later ++ 0x7d :: rest) := by
  induction hm : bytes.length using Nat.strongRecOn generalizing bytes members with
  | ind m ih =>
    subst hm
    obtain ⟨after, b, rest, rfl, hspace, hb⟩ := exists_token (skips_objectTail members) rfl h
    obtain ⟨next, hstep, hnext⟩ := reads_cons hb
    replace hstep : objectTailStep stack members b = .ok next := hstep
    rw [objectTailStep, if_neg hspace] at hstep
    split at hstep
    · rename_i hcomma
      obtain rfl := beq_iff_eq.mp hcomma
      cases hstep
      obtain ⟨before, c, rest, rfl, hspace, hc⟩ := exists_token Waits.objectNext.skips rfl hnext
      obtain ⟨next, hstep, hnext⟩ := reads_cons hc
      simp only [step, if_neg hspace] at hstep
      split at hstep
      · cases hstep
      split at hstep
      swap
      · cases hstep
      rename_i hquote
      obtain rfl := beq_iff_eq.mp hquote
      cases hstep
      simp only [List.length_append, List.length_cons] at hlength ih
      obtain ⟨key, beforeColon, afterColon, s, rest, k, x, rfl, hrest⟩ :=
        member_form hvalues (by omega) hnext
      simp only [List.length_append, List.length_cons] at hlength ih
      obtain ⟨after', later, rest, rfl⟩ := ih rest.length (by omega) (by omega) hrest rfl
      exact ⟨after, .mk before key beforeColon afterColon s after' :: later, rest,
        by simp [memberBytes, stringBytes]⟩
    · split at hstep
      · rename_i hclose
        obtain rfl := beq_iff_eq.mp hclose
        exact ⟨after, [], rest, rfl⟩
      · cases hstep

theorem members_form (hvalues : ValuesRead n) (hlength : bytes.length < n)
    (h : reads .bytes ⟨stack, .objectStart⟩ bytes = some v) :
    ∃ (gap : Gap) (members : List Member) (rest : List UInt8),
      bytes = gap.bytes ++ (memberBytes [] members ++ 0x7d :: rest) := by
  obtain ⟨gap, b, rest, rfl, hspace, hb⟩ := exists_token Waits.objectStart.skips rfl h
  obtain ⟨next, hstep, hnext⟩ := reads_cons hb
  simp only [step, if_neg hspace] at hstep
  split at hstep
  · rename_i hclose
    obtain rfl := beq_iff_eq.mp hclose
    exact ⟨gap, [], rest, rfl⟩
  · split at hstep
    · rename_i hquote
      obtain rfl := beq_iff_eq.mp hquote
      cases hstep
      simp only [List.length_append, List.length_cons] at hlength
      obtain ⟨key, beforeColon, afterColon, s, rest, k, x, rfl, hrest⟩ :=
        member_form hvalues (by omega) hnext
      simp only [List.length_append, List.length_cons] at hlength
      obtain ⟨after, later, rest, rfl⟩ := laterMembers_form hvalues (by omega) hrest
      exact ⟨gap, .mk [] key beforeColon afterColon s after :: later, rest,
        by simp [memberBytes, stringBytes, Gap.bytes]⟩
    · cases hstep

-- ---------------------------------------------------------------------------
-- What stands where a value is read
-- ---------------------------------------------------------------------------

theorem string_ends {pieces : List Piece}
    (h : reads .bytes ⟨stack, .string .value [] .none⟩ (pieceBytes pieces ++ 0x22 :: rest) = some v) :
    Ends rest := by
  rw [reads_string] at h
  obtain ⟨s, -, hrest⟩ := Option.bind_eq_some_iff.mp h
  have hrest : reads .bytes (complete stack (.string s)) rest = some v := hrest
  exact ends_of_reads hrest

theorem array_ends {gap : Gap} {items : List Item}
    (h : reads .bytes ⟨stack, .arrayStart⟩ (gap.bytes ++ (itemBytes [] items ++ 0x5d :: rest)) =
      some v) : Ends rest := by
  rw [reads_gap Waits.arrayStart.skips, items_read] at h
  obtain ⟨xs, -, hrest⟩ := Option.bind_eq_some_iff.mp h
  exact ends_of_reads hrest

theorem object_ends {gap : Gap} {members : List Member}
    (h : reads .bytes ⟨stack, .objectStart⟩
      (gap.bytes ++ (memberBytes [] members ++ 0x7d :: rest)) = some v) : Ends rest := by
  rw [reads_gap Waits.objectStart.skips, members_read] at h
  obtain ⟨pairs, -, hrest⟩ := Option.bind_eq_some_iff.mp h
  exact ends_of_reads hrest

theorem spelling_form (hvalues : ValuesRead n) (hlength : bytes.length < n)
    (hspace : ¬ isSpace b = true) (h : reads .bytes ⟨stack, .value⟩ (b :: bytes) = some v) :
    ∃ (s : Spelling) (rest : List UInt8), b :: bytes = s.bytes ++ rest ∧ Ends rest := by
  obtain ⟨next, hstep, hnext⟩ := reads_cons h
  rw [step_value hspace, start] at hstep
  by_cases hnull : (b == 0x6e) = true
  · rw [if_pos hnull] at hstep
    obtain rfl := beq_iff_eq.mp hnull
    cases hstep
    obtain ⟨rest, rfl, hends⟩ := word_form hnext
    exact ⟨.null, rest, rfl, hends⟩
  rw [if_neg hnull] at hstep
  by_cases htrue : (b == 0x74) = true
  · rw [if_pos htrue] at hstep
    obtain rfl := beq_iff_eq.mp htrue
    cases hstep
    obtain ⟨rest, rfl, hends⟩ := word_form hnext
    exact ⟨.bool true, rest, rfl, hends⟩
  rw [if_neg htrue] at hstep
  by_cases hfalse : (b == 0x66) = true
  · rw [if_pos hfalse] at hstep
    obtain rfl := beq_iff_eq.mp hfalse
    cases hstep
    obtain ⟨rest, rfl, hends⟩ := word_form hnext
    exact ⟨.bool false, rest, rfl, hends⟩
  rw [if_neg hfalse] at hstep
  by_cases hminus : (b == 0x2d) = true
  · obtain ⟨numeral, rest, hbytes, hends⟩ := numeral_form (.inl (beq_iff_eq.mp hminus)) h
    exact ⟨.number numeral, rest, hbytes, hends⟩
  rw [if_neg hminus] at hstep
  by_cases hzero : (b == 0x30) = true
  · have hdigit : isDigit b = true := by
      rw [beq_iff_eq.mp hzero]
      rfl
    obtain ⟨numeral, rest, hbytes, hends⟩ := numeral_form (.inr hdigit) h
    exact ⟨.number numeral, rest, hbytes, hends⟩
  rw [if_neg hzero] at hstep
  by_cases hdigit : isDigit b = true
  · obtain ⟨numeral, rest, hbytes, hends⟩ := numeral_form (.inr hdigit) h
    exact ⟨.number numeral, rest, hbytes, hends⟩
  rw [if_neg hdigit] at hstep
  by_cases hquote : (b == 0x22) = true
  · rw [if_pos hquote] at hstep
    obtain rfl := beq_iff_eq.mp hquote
    cases hstep
    obtain ⟨pieces, rest, rfl⟩ := string_form hnext
    exact ⟨.string pieces, rest, by simp [Spelling.bytes, stringBytes], string_ends hnext⟩
  rw [if_neg hquote] at hstep
  by_cases harray : (b == 0x5b) = true
  · rw [if_pos harray] at hstep
    obtain rfl := beq_iff_eq.mp harray
    obtain ⟨-, hstep⟩ := ite_ok hstep
    cases hstep
    obtain ⟨gap, items, rest, rfl⟩ := items_form hvalues hlength hnext
    exact ⟨.array gap items, rest, by simp [Spelling.bytes], array_ends hnext⟩
  rw [if_neg harray] at hstep
  by_cases hobject : (b == 0x7b) = true
  · rw [if_pos hobject] at hstep
    obtain rfl := beq_iff_eq.mp hobject
    obtain ⟨-, hstep⟩ := ite_ok hstep
    cases hstep
    obtain ⟨gap, members, rest, rfl⟩ := members_form hvalues hlength hnext
    exact ⟨.object gap members, rest, by simp [Spelling.bytes], object_ends hnext⟩
  rw [if_neg hobject] at hstep
  cases hstep

theorem value_form (n : Nat) : ValuesRead n := by
  induction n with
  | zero =>
    intro stack bytes v hlength
    exact absurd hlength (Nat.not_lt_zero _)
  | succ n ih =>
    intro stack bytes v hlength h
    obtain ⟨gap, b, rest, rfl, hspace, hb⟩ := exists_token Waits.value.skips rfl h
    rw [List.length_append, List.length_cons] at hlength
    obtain ⟨s, rest', hbytes, hends⟩ := spelling_form ih (by omega) hspace hb
    rw [hbytes, s.reads stack hends] at hb
    obtain ⟨x, -, hrest⟩ := Option.bind_eq_some_iff.mp hb
    exact ⟨gap, s, rest', x, by rw [hbytes], hrest⟩

-- ---------------------------------------------------------------------------
-- Documents
-- ---------------------------------------------------------------------------

/-- What is read from bytes is what a document of these bytes denotes. -/
theorem exists_document {v : Value} (h : parse bytes = .ok v) :
    ∃ d : Document, d.bytes = bytes ∧ d.value? = some v := by
  have hreads : reads .bytes {} bytes = some v := by
    rw [← run_toOption .bytes {} {} bytes]
    exact toOption_eq_some_iff.mpr h
  obtain ⟨before, s, rest, x, rfl, hrest⟩ := value_form _ (Nat.lt_succ_self _) hreads
  obtain ⟨after, rest, rfl, hspace⟩ := exists_gap rest
  rw [reads_gap (skips_complete [] x)] at hrest
  have hnil : rest = [] := by
    rcases rest with _ | ⟨b, rest⟩
    · rfl
    · obtain ⟨next, hstep, -⟩ := reads_cons hrest
      simp [complete, step, doneStep, hspace b rfl, refuse] at hstep
  subst hnil
  rw [List.append_nil] at h
  refine ⟨⟨before, s, after⟩, by simp [Document.bytes], ?_⟩
  rw [← Document.parse, Document.bytes, h]
  rfl

end Telemetry.Json
