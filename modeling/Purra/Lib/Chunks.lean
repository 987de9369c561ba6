import Mathlib.Data.List.Basic

/-!
# Machines fed in chunks

A machine that is fed a text piece by piece, and puts something out for each piece.  Where
the pieces begin and end is not to matter: `Sequential` asks that a piece may be cut in two,
and `feedAll_eq` says that the whole text may then be fed at once.
-/

namespace Purra.Chunks

variable {σ α β : Type} (feed : σ → List α → Option (List β × σ))

/-- Feed the chunks one after the other; `none` is a machine that has failed. -/
def feedAll : σ → List (List α) → Option (List β × σ)
  | s, [] => some ([], s)
  | s, chunk :: rest => do
    let (out, s) ← feed s chunk
    let (others, s) ← feedAll s rest
    some (out ++ others, s)

/-- Feeding a chunk is feeding its parts, in every state that satisfies `I`. -/
structure Sequential (I : σ → Prop) : Prop where
  nil : ∀ s, I s → feed s [] = some ([], s)
  append : ∀ s a b, I s → feed s (a ++ b) =
    (feed s a).bind fun p => (feed p.2 b).map fun q => (p.1 ++ q.1, q.2)
  kept : ∀ s a out s', I s → feed s a = some (out, s') → I s'

variable {feed} {I : σ → Prop} {s : σ}

/-- The chunks may be fed as one. -/
theorem Sequential.feedAll_eq (h : Sequential feed I) (hs : I s) (chunks : List (List α)) :
    feedAll feed s chunks = feed s chunks.flatten := by
  induction chunks generalizing s with
  | nil => rw [List.flatten_nil, h.nil s hs, feedAll]
  | cons chunk rest ih =>
    rw [List.flatten_cons, h.append s chunk rest.flatten hs, feedAll]
    cases hchunk : feed s chunk with
    | none => rfl
    | some p =>
      obtain ⟨out, s'⟩ := p
      have hrest := ih (h.kept s chunk out s' hs hchunk)
      show (feedAll feed s' rest).bind _ = (feed s' rest.flatten).map _
      rw [hrest]
      cases feed s' rest.flatten <;> rfl

/-- **Where the chunks are cut does not matter.** -/
theorem Sequential.feedAll_congr (h : Sequential feed I) (hs : I s) {chunks chunks' : List (List α)}
    (htext : chunks.flatten = chunks'.flatten) :
    feedAll feed s chunks = feedAll feed s chunks' := by
  rw [h.feedAll_eq hs, h.feedAll_eq hs, htext]

end Purra.Chunks
