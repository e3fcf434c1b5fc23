/-!
# White space

The characters with the Unicode property `White_Space`, and text without
them at its ends.
-/

namespace Telemetry.Text

/-- The Unicode property `White_Space`. -/
def isBlank (c : Char) : Bool :=
  let n := c.toNat
  (0x9 ≤ n && n ≤ 0xd) || n == 0x20 || n == 0x85 || n == 0xa0 || n == 0x1680 ||
    (0x2000 ≤ n && n ≤ 0x200a) || n == 0x2028 || n == 0x2029 || n == 0x202f ||
    n == 0x205f || n == 0x3000

def strip (cs : List Char) : List Char :=
  ((cs.dropWhile isBlank).reverse.dropWhile isBlank).reverse

def trim (s : String) : String :=
  String.ofList (strip s.toList)

/-- No character, or white space only. -/
def allBlank (s : String) : Bool :=
  s.toList.all isBlank

theorem toList_trim (s : String) : (trim s).toList = strip s.toList := by
  simp [trim]

end Telemetry.Text
