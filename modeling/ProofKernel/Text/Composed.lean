import ProofKernel.Text.CombiningClass
import ProofKernel.Text.Composition
import ProofKernel.Text.Decomposition
import ProofKernel.Text.Symbol

/-!
# Composed text

Two spellings of a letter with marks are made one before a script is read: every character is
replaced by its canonical decomposition, runs of marks are put in order of their class, and what
composes is composed again (the Unicode normalization form C).

* `Composed.segments` cuts a text where nothing composes across and decomposes the pieces;
  `Composed.reorder` and `Composed.compose` are the other two steps on one piece.
* `Text.composed` is the whole.  A byte that is part of no character is left where it stands and
  nothing composes across it.

A run of more than `Composed.longestRun` marks is broken by U+034F, so that the work on one segment
is bounded.
-/

set_option autoImplicit false
namespace ProofKernel
namespace Composed

/-! ## Hangul -/

/-- First code points and sizes of the three kinds of Hangul letters, and of the syllables. -/
def leadBase : Nat := 0x1100
def vowelBase : Nat := 0x1161
def tailBase : Nat := 0x11A7
def syllableBase : Nat := 0xAC00
def leadCount : Nat := 19
def vowelCount : Nat := 21
def tailCount : Nat := 28
def syllableCount : Nat := leadCount * vowelCount * tailCount

/-- The letters of a Hangul syllable. -/
def syllable? (code : Nat) : Option (List Nat) :=
  if syllableBase ≤ code && code < syllableBase + syllableCount then
    let i := code - syllableBase
    let lead := leadBase + i / (vowelCount * tailCount)
    let vowel := vowelBase + i % (vowelCount * tailCount) / tailCount
    if i % tailCount = 0 then some [lead, vowel]
    else some [lead, vowel, tailBase + i % tailCount]
  else none

/-- The syllable of a lead and a vowel, or of an open syllable and a tail. -/
def joinHangul? (first second : Nat) : Option Nat :=
  if leadBase ≤ first && first < leadBase + leadCount && vowelBase ≤ second &&
      second < vowelBase + vowelCount then
    some (syllableBase + ((first - leadBase) * vowelCount + (second - vowelBase)) * tailCount)
  else if syllableBase ≤ first && first < syllableBase + syllableCount &&
      (first - syllableBase) % tailCount = 0 && tailBase < second &&
      second < tailBase + tailCount then
    some (first + (second - tailBase))
  else none

/-! ## Decomposition -/

/-- The canonical decomposition of a character. -/
def decomposeChar (c : Char) : List Char :=
  match (syllable? c.toNat).or (Decomposition.ofCode? c.toNat) with
  | some codes => codes.map Char.ofNat
  | none => [c]

/-- Whether a character can be joined to one before it. -/
def joinsBack (c : Char) : Bool :=
  let code := c.toNat
  (vowelBase ≤ code && code < vowelBase + vowelCount) ||
    (tailBase < code && code < tailBase + tailCount) ||
    (0x300 ≤ code && Composition.pairs.any fun (_, second, _) => second == code)

/-- Whether a character is a mark on what stands before it, or can be joined to that. -/
def attaches (c : Char) : Bool :=
  CombiningClass.ofChar c != 0 || joinsBack c

/-- The symbols a symbol is made of. -/
def parts : Symbol → Text
  | .char c => (decomposeChar c).map Symbol.char
  | .stray b => [.stray b]

/-- The number of marks a symbol begins with, when it continues a run of marks. -/
def marksBefore : Symbol → Nat
  | .char c =>
    if MarkCount.isMark c then 1 else ((decomposeChar c).takeWhile attaches).length
  | .stray _ => 0

/-- The number of marks a symbol ends with. -/
def marksAfter : Symbol → Nat
  | .char c =>
    (MarkCount.inner? c).getD ((decomposeChar c).reverse.takeWhile attaches).length
  | .stray _ => 0

/-! ## Segments -/

/-- The longest run of marks. -/
def longestRun : Nat := 30

/-- The character that breaks a longer run. -/
def joiner : Char := '\u034F'

/-- Cuts a text into segments and decomposes them.  A segment begins with a symbol that continues
nothing, and holds everything up to the next one; one with too long a run of marks ends with the
joiner.  `run` is the number of marks at the end of the open segment, and `held` are its symbols,
last first. -/
def segments (run : Nat) (held : Text) : Text → List Text
  | [] => [held.reverse]
  | s :: rest =>
    let count := marksBefore s
    if count = 0 then held.reverse :: segments (marksAfter s) (parts s).reverse rest
    else if longestRun < run + count then
      (.char joiner :: held).reverse :: segments count (parts s).reverse rest
    else segments (run + count) ((parts s).reverse ++ held) rest

/-! ## Order of marks -/

/-- The class of a symbol; a stray byte has class zero. -/
def classOf : Symbol → Nat
  | .char c => CombiningClass.ofChar c
  | .stray _ => 0

/-- Puts a mark in front of a sorted run, before the first mark of a class not smaller. -/
def insertMark (s : Symbol) : Text → Text
  | [] => [s]
  | t :: rest =>
    if classOf t != 0 && classOf t < classOf s then t :: insertMark s rest else s :: t :: rest

/-- Sorts every run of marks by class, keeping the order of marks of one class. -/
def reorder : Text → Text
  | [] => []
  | s :: rest => if classOf s = 0 then s :: reorder rest else insertMark s (reorder rest)

/-! ## Composition -/

/-- The symbol two symbols compose into. -/
def join? : Symbol → Symbol → Option Symbol
  | .char first, .char second =>
    ((joinHangul? first.toNat second.toNat).or
      (Composition.ofPair? first.toNat second.toNat)).map fun code => .char (Char.ofNat code)
  | _, _ => none

/-- Whether a symbol is a conjoining letter of Hangul. -/
def isConjoining (s : Symbol) : Bool :=
  s.holds fun c => 0x1100 ≤ c.val && c.val ≤ 0x11FF

/-- Composes what follows a base in its segment.  `since` are the symbols since the base that did
not compose with it, last first.

A symbol that can be joined backwards is joined to the base if that composes, unless a symbol of the
same or a higher class stands between them.  Directly after a symbol of class zero, that symbol
becomes the base first.  Where Hangul letters are being joined (`hangul`), every symbol is taken for
one that can be joined backwards. -/
def composeAfter (hangul : Bool) (base : Symbol) (since : Text) : Text → Text
  | [] => base :: since.reverse
  | s :: rest =>
    let hangul := hangul || isConjoining s
    if hangul || s.holds joinsBack then
      match since with
      | [] =>
        match join? base s with
        | some joined => composeAfter hangul joined [] rest
        | none => composeAfter hangul base [s] rest
      | last :: before =>
        if classOf last = 0 then
          let done := base :: before.reverse
          match join? last s with
          | some joined => done ++ composeAfter hangul joined [] rest
          | none => done ++ composeAfter hangul last [s] rest
        else
          match if classOf last < classOf s then join? base s else none with
          | some joined => composeAfter hangul joined since rest
          | none => composeAfter hangul base (s :: since) rest
    else composeAfter hangul base (s :: since) rest

/-- Composes a segment. -/
def compose : Text → Text
  | [] => []
  | base :: rest => composeAfter false base [] rest

/-- Whether a symbol neither decomposes nor attaches to what stands before it. -/
def isPlain (s : Symbol) : Bool :=
  match s with
  | .char c => c.val < 0xC0
  | .stray _ => true

end Composed

open Composed in
/-- The composed form of a text.  A text of plain symbols is its own composed form. -/
def Text.composed (text : Text) : Text :=
  if text.all isPlain then text
  else (segments 0 [] text).flatMap fun segment => compose (reorder segment)

end ProofKernel
