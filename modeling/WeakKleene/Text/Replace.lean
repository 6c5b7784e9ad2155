import WeakKleene.Text.Word

namespace WeakKleene
namespace Text

/-!
Finding and replacing pieces of text.
-/

def occursIn (what : List Char) : List Char -> Bool
  | [] => what.isEmpty
  | c :: rest => what.isPrefixOf (c :: rest) || occursIn what rest

/-- Replace every occurrence of a text that is not empty, from left to right. -/
def replaceAll (what replacement : List Char) (text : List Char) : List Char := scan 0 text
where
  /-- Skip what was replaced, then go on. -/
  scan : Nat -> List Char -> List Char
    | _, [] => []
    | skip + 1, _ :: rest => scan skip rest
    | 0, c :: rest =>
      if what.isPrefixOf (c :: rest) then replacement ++ scan (what.length - 1) rest
      else c :: scan 0 rest

/-- Change every word of a text, given the word and the character after it.  What stands between
words is kept. -/
def mapWords (change : List Char -> Option Char -> List Char) (text : List Char) : List Char :=
  scan [] text
where
  /-- The word that ends here, if any. -/
  changed (word : List Char) (next : Option Char) : List Char :=
    if word.isEmpty then [] else change word next
  scan (word : List Char) : List Char -> List Char
    | [] => changed word none
    | c :: rest =>
      if isWordChar c then scan (word ++ [c]) rest
      else changed word (some c) ++ c :: scan [] rest

end Text
end WeakKleene
