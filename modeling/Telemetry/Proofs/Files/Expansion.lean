import Telemetry.Files.Tree
import Telemetry.Text.Cut

/-!
# Where a typed path leads

A typed path is taken from the home folder if it starts with a tilde and a
separator, stays as it is if it is absolute, and is taken from the working
folder otherwise (`expand_leads`). One separator is cut off after the tilde, so
where two slashes follow it the rest is absolute and the home folder is
forgotten (`expand_double_slash`).

Folders are compared by components, as they are written: a name that is two dots
is a component like others.
-/

namespace Telemetry.Files

/-- The components of a path: the root, or else the dot that it starts with, and
its names. -/
def components (path : String) : List String :=
  if isAbsolute path then "/" :: names path
  else if (pieces path).head? = some "." then "." :: names path
  else names path

def Within (folder path : String) : Prop :=
  components folder <+: components path

instance (folder path : String) : Decidable (Within folder path) :=
  inferInstanceAs (Decidable (components folder <+: components path))

def IsUnderTilde (typed rest : String) : Prop :=
  typed = "~/" ++ rest ∨ typed = "~\\" ++ rest

/-- The tilde replaced byte by byte: the text after it is cut at its first byte
if it starts with a separator. Nothing comes of it if that is inside a
character. -/
def replaceTildeByBytes? (home typed : String) : Option String :=
  match typed.toList with
  | '~' :: rest =>
    if rest = [] then some home
    else if rest.head? = some '/' ∨ rest.head? = some '\\' then
      (Text.fromByte? 1 rest).map fun after => join home (String.ofList after)
    else some typed
  | _ => some typed

variable {home working folder typed rest : String}

-- ---------------------------------------------------------------------------
-- Names
-- ---------------------------------------------------------------------------

theorem pieces_append (p q : String) : pieces (p ++ "/" ++ q) = pieces p ++ pieces q := by
  have hsplit : (p ++ "/" ++ q).toList.splitOn '/' =
      p.toList.splitOn '/' ++ q.toList.splitOn '/' := by
    simpa using List.splitOn_append_cons_self (a := '/') p.toList q.toList
  rw [pieces, hsplit, List.map_append]
  rfl

theorem names_append (p q : String) : names (p ++ "/" ++ q) = names p ++ names q := by
  rw [names, pieces_append, List.filter_append]
  rfl

theorem names_slash (p : String) : names (p ++ "/") = names p := by
  have happend := names_append p ""
  rw [String.append_empty] at happend
  exact happend.trans (List.append_nil _)

theorem exists_slash (h : folder.toList.getLast? = some '/') : ∃ p, folder = p ++ "/" := by
  obtain ⟨cs, hcs⟩ := List.getLast?_eq_some_iff.mp h
  exact ⟨String.ofList cs, String.toList_inj.mp (by simp [hcs])⟩

-- ---------------------------------------------------------------------------
-- Joined paths
-- ---------------------------------------------------------------------------

theorem join_absolute (h : isAbsolute rest = true) (folder : String) : join folder rest = rest :=
  if_pos h

theorem names_join (relative : isAbsolute rest = false) (folder : String) :
    names (join folder rest) = names folder ++ names rest := by
  rw [join, relative, if_neg Bool.false_ne_true]
  split
  · rename_i hends
    rcases Bool.or_eq_true_iff.mp hends with hempty | hslash
    · rw [String.isEmpty_iff.mp hempty, String.empty_append]
      rfl
    · obtain ⟨p, rfl⟩ := exists_slash (beq_iff_eq.mp hslash)
      rw [names_append, names_slash]
  · exact names_append folder rest

theorem isAbsolute_append (h : isAbsolute folder = true) (rest : String) :
    isAbsolute (folder ++ rest) = true := by
  simp only [isAbsolute, beq_iff_eq, String.toList_append] at h ⊢
  rw [List.head?_append, h]
  rfl

theorem isAbsolute_join (h : isAbsolute folder = true) (rest : String) :
    isAbsolute (join folder rest) = true := by
  unfold join
  split
  · assumption
  · split
    · exact isAbsolute_append h rest
    · rw [String.append_assoc]
      exact isAbsolute_append h ("/" ++ rest)

theorem within_join (rooted : isAbsolute folder = true) (relative : isAbsolute rest = false) :
    Within folder (join folder rest) := by
  rw [Within, components, components, if_pos rooted, if_pos (isAbsolute_join rooted rest),
    names_join relative]
  exact List.prefix_append ("/" :: names folder) (names rest)

-- ---------------------------------------------------------------------------
-- The tilde
-- ---------------------------------------------------------------------------

theorem isUnderTilde_iff :
    IsUnderTilde typed rest ↔
      ∃ c, (c = '/' ∨ c = '\\') ∧ typed.toList = '~' :: c :: rest.toList := by
  simp only [IsUnderTilde, ← String.toList_inj, String.toList_append]
  constructor
  · rintro (h | h)
    · exact ⟨'/', .inl rfl, h⟩
    · exact ⟨'\\', .inr rfl, h⟩
  · rintro ⟨c, rfl | rfl, h⟩
    · exact .inl h
    · exact .inr h

theorem afterTilde?_eq_some_iff {after : List Char} :
    afterTilde? typed.toList = some after ↔ IsUnderTilde typed (String.ofList after) := by
  rw [isUnderTilde_iff, String.toList_ofList]
  generalize typed.toList = cs
  constructor
  · intro h
    unfold afterTilde? at h
    split at h
    · rename_i c after'
      split at h
      · rename_i hc
        cases h
        exact ⟨c, hc, rfl⟩
      · cases h
    · cases h
  · rintro ⟨c, hc, rfl⟩
    exact if_pos hc

theorem replaceTilde_under (h : IsUnderTilde typed rest) :
    replaceTilde (some home) typed = join home rest := by
  have hself : typed ≠ "~" := by
    rintro rfl
    obtain ⟨c, -, hc⟩ := isUnderTilde_iff.mp h
    cases hc
  have hafter : afterTilde? typed.toList = some rest.toList :=
    afterTilde?_eq_some_iff.mpr (by rwa [String.ofList_toList])
  simp only [replaceTilde, if_neg hself, hafter, String.ofList_toList]

theorem replaceTilde_other (hself : typed ≠ "~") (h : ∀ rest, ¬ IsUnderTilde typed rest) :
    replaceTilde (some home) typed = typed := by
  have hafter : afterTilde? typed.toList = none :=
    Option.eq_none_iff_forall_ne_some.mpr fun after hafter =>
      h _ (afterTilde?_eq_some_iff.mp hafter)
  simp only [replaceTilde, if_neg hself, hafter]

theorem replaceTilde_absolute (h : isAbsolute typed = true) :
    replaceTilde (some home) typed = typed := by
  have hhead : typed.toList.head? = some '/' := beq_iff_eq.mp h
  refine replaceTilde_other ?_ ?_
  · rintro rfl
    cases hhead
  · intro rest hrest
    obtain ⟨c, -, hc⟩ := isUnderTilde_iff.mp hrest
    rw [hc] at hhead
    cases hhead

/-- Nothing is ever cut inside a character: what the cut takes off is one of the
separators, and they have one byte. -/
theorem replaceTildeByBytes?_eq (home typed : String) :
    replaceTildeByBytes? home typed = some (replaceTilde (some home) typed) := by
  unfold replaceTildeByBytes?
  split
  · rename_i rest htyped
    split
    · rename_i hrest
      have hself : typed = "~" := String.toList_inj.mp (by rw [htyped, hrest]; rfl)
      rw [hself]
      rfl
    · rename_i hrest
      obtain ⟨c, after, rfl⟩ := List.exists_cons_of_ne_nil hrest
      simp only [List.head?_cons, Option.some.injEq]
      split
      · rename_i hc
        have hunder : IsUnderTilde typed (String.ofList after) :=
          isUnderTilde_iff.mpr ⟨c, hc, by rw [htyped, String.toList_ofList]⟩
        have hcut : Text.fromByte? 1 (c :: after) = some after := by
          rcases hc with rfl | rfl
          · exact Text.fromByte?_append ['/'] after
          · exact Text.fromByte?_append ['\\'] after
        rw [hcut, replaceTilde_under hunder]
        rfl
      · rename_i hc
        refine congrArg some (replaceTilde_other ?_ fun later hlater => ?_).symm
        · rintro rfl
          cases htyped
        · obtain ⟨separator, hseparator, h⟩ := isUnderTilde_iff.mp hlater
          rw [htyped] at h
          cases h
          exact hc hseparator
  · rename_i hother
    refine congrArg some (replaceTilde_other ?_ fun later hlater => ?_).symm
    · rintro rfl
      exact hother [] rfl
    · obtain ⟨separator, -, h⟩ := isUnderTilde_iff.mp hlater
      exact hother _ h

-- ---------------------------------------------------------------------------
-- Expansion
-- ---------------------------------------------------------------------------

/-- Where a typed path leads, with the white space at its ends gone. A tilde
alone is the home folder. What follows a tilde and a separator is taken from the
home folder, unless it is absolute itself. An absolute path stays as it is, and
everything else is taken from the working folder. The path that comes of it is
always absolute, and the cut after the tilde never fails. -/
theorem expand_leads (homeRooted : isAbsolute home = true)
    (workingRooted : isAbsolute working = true) (path : String) :
    (replaceTildeByBytes? home (Text.trim path)).map (join working) =
        some (expand (some home) working path) ∧
      isAbsolute (expand (some home) working path) = true ∧
      (Text.trim path = "~" → expand (some home) working path = home) ∧
      (∀ rest, IsUnderTilde (Text.trim path) rest → isAbsolute rest = false →
        Within home (expand (some home) working path) ∧
          names (expand (some home) working path) = names home ++ names rest) ∧
      (∀ rest, IsUnderTilde (Text.trim path) rest → isAbsolute rest = true →
        expand (some home) working path = rest) ∧
      (isAbsolute (Text.trim path) = true → expand (some home) working path = Text.trim path) ∧
      (Text.trim path ≠ "~" → (∀ rest, ¬ IsUnderTilde (Text.trim path) rest) →
        isAbsolute (Text.trim path) = false →
        Within working (expand (some home) working path) ∧
          names (expand (some home) working path) = names working ++ names (Text.trim path)) := by
  generalize htyped : Text.trim path = typed
  have hexpand :
      expand (some home) working path = join working (replaceTilde (some home) typed) := by
    rw [expand, htyped]
  rw [hexpand]
  refine ⟨?_, isAbsolute_join workingRooted _, ?_, ?_, ?_, ?_, ?_⟩
  · rw [replaceTildeByBytes?_eq]
    rfl
  · rintro rfl
    exact join_absolute homeRooted working
  · intro rest hunder hrelative
    rw [replaceTilde_under hunder, join_absolute (isAbsolute_join homeRooted rest)]
    exact ⟨within_join homeRooted hrelative, names_join hrelative home⟩
  · intro rest hunder hrooted
    rw [replaceTilde_under hunder, join_absolute hrooted, join_absolute hrooted]
  · intro hrooted
    rw [replaceTilde_absolute hrooted, join_absolute hrooted]
  · intro hself hunder hrelative
    rw [replaceTilde_other hself hunder]
    exact ⟨within_join workingRooted hrelative, names_join hrelative working⟩

theorem expand_leads_backslash :
    isAbsolute "/home/é x/" = true ∧ isAbsolute "/tmp" = true ∧
      Within "/home/é x/" (expand (some "/home/é x/") "/tmp" "\u3000~\\./a\\b ") ∧
      names (expand (some "/home/é x/") "/tmp" "\u3000~\\./a\\b ") = ["home", "é x", "a\\b"] := by
  have hhome : isAbsolute "/home/é x/" = true := by decide
  have hworking : isAbsolute "/tmp" = true := by decide
  have hunder : IsUnderTilde (Text.trim "\u3000~\\./a\\b ") "./a\\b" := .inr (by decide)
  obtain ⟨-, -, -, hrelative, -⟩ := expand_leads hhome hworking "\u3000~\\./a\\b "
  obtain ⟨hwithin, hnames⟩ := hrelative "./a\\b" hunder (by decide)
  exact ⟨hhome, hworking, hwithin, hnames.trans (by decide)⟩

/-- After a tilde and two slashes the home folder is forgotten. -/
theorem expand_double_slash :
    Text.trim "~//x" = "~/" ++ "/x" ∧ isAbsolute "/home/u" = true ∧ isAbsolute "/tmp" = true ∧
      ¬ Within "/home/u" (expand (some "/home/u") "/tmp" "~//x") := by
  decide

end Telemetry.Files
