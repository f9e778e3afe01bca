import Mathlib.Data.String.Basic
import Mathlib.Data.List.Sort
import Mathlib.Data.List.Dedup

/-!
# Python text

The white space of `str.strip` and of `\s`, substring tests, and the letters
that a case-insensitive pattern identifies.  Texts are handled as lists of
characters.
-/

namespace ApexForensic.Support

/-- `c.isspace()`. -/
def isSpace (c : Char) : Bool :=
  c ∈ ['\t', '\n', '\x0b', '\x0c', '\r', '\x1c', '\x1d', '\x1e', '\x1f', ' ',
    '\x85', '\u00a0', '\u1680', '\u2028', '\u2029', '\u202f', '\u205f',
    '\u3000'] ||
  (0x2000 ≤ c.toNat && c.toNat ≤ 0x200a)

def stripChars (cs : List Char) : List Char :=
  ((cs.dropWhile isSpace).reverse.dropWhile isSpace).reverse

/-- `s.strip()`. -/
def strip (s : String) : String :=
  String.ofList (stripChars s.toList)

/-- `part in s`. -/
def containsText (part s : String) : Bool :=
  s.toList.tails.any fun tail => part.toList.isPrefixOf tail

/-- A letter as a pattern with `re.IGNORECASE` compares it with an ASCII
letter. -/
def foldLetter (c : Char) : Char :=
  if c = '\u0130' ∨ c = '\u0131' then 'i'
  else if c = '\u017f' then 's'
  else if c = '\u212a' then 'k'
  else c.toLower

/-- What follows a word at the start of a text, letters compared without
case. -/
def afterWord (word cs : List Char) : Option (List Char) :=
  if (cs.take word.length).map foldLetter = word then
    some (cs.drop word.length)
  else none

/-- A predicate on texts holds of some suffix: `re.search` with a pattern that
is tried at every position. -/
def searchText (found : List Char → Bool) (s : String) : Bool :=
  s.toList.tails.any found

/-- `sorted(dict.fromkeys(values))`. -/
def sortedUnique (values : List String) : List String :=
  values.dedup.insertionSort (· ≤ ·)

theorem mem_sortedUnique {values : List String} {v : String} :
    v ∈ sortedUnique values ↔ v ∈ values := by
  rw [sortedUnique, List.mem_insertionSort, List.mem_dedup]

theorem nodup_sortedUnique (values : List String) :
    (sortedUnique values).Nodup :=
  (List.perm_insertionSort _ _).nodup_iff.mpr (List.nodup_dedup _)

end ApexForensic.Support
