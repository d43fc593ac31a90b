/-!
# Case folding and white space

Letters `A` to `Z` are folded to `a` to `z`; every other character stands for itself. Texts are
trimmed of the characters that have the Unicode property `White_Space`.
-/

namespace UsagePolicy.Text

def fold (s : String) : String :=
  String.ofList (s.toList.map Char.toLower)

/-- Equal up to the case of ASCII letters. -/
def sameFolded (s t : String) : Bool :=
  fold s == fold t

example : fold "NOT-É" = "not-É" := by decide

/-- A character with the Unicode property `White_Space`. -/
def isBlank (c : Char) : Bool :=
  let n := c.toNat
  (0x09 ≤ n && n ≤ 0x0D) || n == 0x20 || n == 0x85 || n == 0xA0 || n == 0x1680 ||
    (0x2000 ≤ n && n ≤ 0x200A) || n == 0x2028 || n == 0x2029 || n == 0x202F ||
    n == 0x205F || n == 0x3000

/-- The characters between the first and the last that is not blank. -/
def trimChars (cs : List Char) : List Char :=
  ((cs.dropWhile isBlank).reverse.dropWhile isBlank).reverse

def trim (s : String) : String :=
  String.ofList (trimChars s.toList)

/-- Nothing but white space. -/
def isBlankText (s : String) : Bool :=
  s.toList.all isBlank

example : trim "\u00a0 Allowed\t\u3000" = "Allowed" := by decide

end UsagePolicy.Text
