import ProofKernel.Text.Composed

/-!
# Text in composed form

A text is composed segment by segment, and a segment ends before a symbol that continues nothing.
So two texts in composed form, the second of which begins with such a symbol, are in composed form
when put together.

* `Text.composed_eq_segments`: the composed form is that of the segments, for plain text as well.
* `Text.composed_append` is the composed form of two texts, the second of which continues nothing.
* `Text.Settled` is a text in composed form all of whose parts are.  A text is settled when each of
  its symbols continues nothing and is composed on its own (`Text.Settled.of_separate`).
-/

set_option autoImplicit false
namespace ProofKernel
namespace Composed

/-! ## Segments -/

/-- The composed form of a segment. -/
def composeSegment (segment : Text) : Text :=
  compose (reorder segment)

/-- A symbol that continues nothing, and is composed on its own. -/
def Separate (s : Symbol) : Prop :=
  marksBefore s = 0 ∧ composeSegment (parts s) = [s]

instance (s : Symbol) : Decidable (Separate s) :=
  inferInstanceAs (Decidable (_ ∧ _))

/-- A symbol that continues nothing ends the segment before it. -/
theorem segments_append {s : Symbol} (hs : marksBefore s = 0) (run : Nat) (held a b : Text) :
    segments run held (a ++ s :: b) =
      segments run held a ++ segments (marksAfter s) (parts s).reverse b := by
  induction a generalizing run held with
  | nil => simp [segments, hs]
  | cons c a ih =>
    simp only [List.cons_append, segments, ih]
    split
    · rfl
    · split <;> rfl

/-- The composed form of symbols that are each composed on their own. -/
theorem flatMap_segments_of_separate {text : Text} (h : ∀ s ∈ text, Separate s) (run : Nat)
    (held : Text) :
    (segments run held text).flatMap composeSegment = composeSegment held.reverse ++ text := by
  induction text generalizing run held with
  | nil => simp [segments]
  | cons s text ih =>
    obtain ⟨⟨hbefore, hcompose⟩, htext⟩ := List.forall_mem_cons.1 h
    simp only [segments, hbefore, if_true, List.flatMap_cons]
    rw [ih htext, List.reverse_reverse, hcompose, List.singleton_append]

theorem separate_of_isPlain {s : Symbol} (h : isPlain s = true) : Separate s := by
  cases s with
  | stray b => exact ⟨rfl, rfl⟩
  | char c =>
    have hall : ∀ n < 0xC0, Separate (.char (Char.ofNat n)) := by decide +kernel
    have hc : c.toNat < 0xC0 := by
      rw [isPlain, decide_eq_true_eq, UInt32.lt_iff_toNat_lt] at h
      exact h
    have hsep := hall c.toNat hc
    rwa [Char.ofNat_toNat] at hsep

end Composed

namespace Text

open Composed

variable {a b text : Text}

/-- **A text is composed segment by segment.** -/
theorem composed_eq_segments (text : Text) :
    text.composed = (segments 0 [] text).flatMap composeSegment := by
  unfold composed
  split
  · next hplain =>
    rw [List.all_eq_true] at hplain
    exact (flatMap_segments_of_separate (fun s hs => separate_of_isPlain (hplain s hs)) 0 []).symm
  · rfl

/-- Two texts are composed one by one when the second continues nothing. -/
theorem composed_append {s : Symbol} (hs : marksBefore s = 0) (a b : Text) :
    Text.composed (a ++ s :: b) = a.composed ++ Text.composed (s :: b) := by
  have hfirst : segments 0 [] (s :: b) = [] :: segments (marksAfter s) (parts s).reverse b := by
    simp [segments, hs]
  rw [composed_eq_segments, composed_eq_segments a, composed_eq_segments (s :: b), hfirst,
    segments_append hs, List.flatMap_append, List.flatMap_cons]
  rfl

/-- A period behind a text in composed form leaves it so. -/
theorem composed_period (h : a.composed = a) :
    Text.composed (a ++ [.char '.']) = a ++ [.char '.'] := by
  rw [composed_append (separate_of_isPlain rfl).1, h]
  rfl

/-- Lines in composed form make a text in composed form, when the later ones begin with plain
symbols. -/
theorem composed_newline {s : Symbol} (hs : isPlain s = true) (ha : a.composed = a)
    (hb : Text.composed (s :: b) = s :: b) :
    Text.composed (a ++ .char '\n' :: s :: b) = a ++ .char '\n' :: s :: b := by
  have hline : Text.composed ([.char '\n'] ++ s :: b) = [.char '\n'] ++ s :: b := by
    rw [composed_append (separate_of_isPlain hs).1, hb]
    rfl
  rw [composed_append (separate_of_isPlain rfl).1, ha]
  exact congrArg (a ++ ·) hline

/-! ## Parts of texts -/

/-- A text in composed form, with all its parts. -/
def Settled (text : Text) : Prop :=
  ∀ part : Text, part <:+: text → part.composed = part

theorem Settled.part {piece : Text} (h : text.Settled) (hpiece : piece <:+: text) : piece.Settled :=
  fun part hpart => h part (hpart.trans hpiece)

theorem Settled.composed (h : text.Settled) : text.composed.Settled := by
  rwa [h text List.infix_rfl]

theorem Settled.of_separate (h : ∀ s ∈ text, Separate s) : text.Settled := by
  intro part hpart
  rw [composed_eq_segments]
  exact flatMap_segments_of_separate (fun s hs => h s (hpart.subset hs)) 0 []

theorem settled_of_plain (h : text.all isPlain = true) : text.Settled := by
  rw [List.all_eq_true] at h
  exact .of_separate fun s hs => separate_of_isPlain (h s hs)

end Text
end ProofKernel
