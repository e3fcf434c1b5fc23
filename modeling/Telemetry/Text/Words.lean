import Telemetry.Text.Alphanumeric
import Telemetry.Text.Case

/-!
# Words of an identifier

An identifier is cut at every character that is neither a letter nor a
number, and inside the pieces where the case shows that a word starts: at an
upper case letter after a lower case one (`queue|Url`), and at the last
capital of a run that a lower case letter follows (`URL|Path`). Characters
without case never start a word and keep the case seen before them.
-/

namespace Telemetry.Text

/-- The case that the characters since the last cut have shown. -/
inductive WordCase where
  | unseen
  | lowered
  | capital
  deriving DecidableEq, Repr

def WordCase.after (seen : WordCase) (c : Char) : WordCase :=
  if isLower c then .lowered else if isUpper c then .capital else seen

/-- The words of a piece without separators. `word` holds, last first, the
characters since the last cut. -/
def caseWords (seen : WordCase) (word : List Char) : List Char → List (List Char)
  | [] => []
  | [c] => [(c :: word).reverse]
  | c :: next :: rest =>
    if seen.after c = .lowered ∧ isUpper next then
      (c :: word).reverse :: caseWords .unseen [] (next :: rest)
    else if seen = .capital ∧ isUpper c ∧ isLower next then
      word.reverse :: caseWords .unseen [c] (next :: rest)
    else
      caseWords (seen.after c) (c :: word) (next :: rest)

/-- The lower case form of a word; a sigma that ends the word takes its
final form. -/
def lowerWord : List Char → List Char
  | [] => []
  | [c] => if c = 'Σ' then ['ς'] else lower c
  | c :: rest => lower c ++ lowerWord rest

def words (cs : List Char) : List (List Char) :=
  (cs.splitBy fun a b => isAlphanumeric a == isAlphanumeric b).flatMap fun piece =>
    if piece.all isAlphanumeric then caseWords .unseen [] piece else []

/-- The words of an identifier in lower case, joined by underscores. -/
def snakeCase (s : String) : String :=
  String.ofList (['_'].intercalate ((words s.toList).map lowerWord))

end Telemetry.Text
