import Mathlib.Data.List.Basic

/-! # Transforms fed in chunks

    A transform remembers a state, gives out a piece for each chunk it is fed and a last piece
    at its end. It streams when feeding a text in one chunk or in several is the same: then the
    pieces of any cutting, put together, are the output for the whole text.

        text      ── cut ──▶  c₁     c₂     …   cₙ
        state  s ──────────▶  s₁ ──▶ s₂ ──▶ … ─▶ sₙ
                              o₁     o₂     …   oₙ   final -/

namespace ZedBot

/-- A transform over bytes, or any other letters, that is fed chunk by chunk. -/
structure StreamTransform (β : Type*) where
  State : Type
  update : State → List β → State × List β
  final : State → List β

namespace StreamTransform

variable {β : Type*} (T : StreamTransform β)

/-- The state after a sequence of chunks, and the pieces given out on the way. -/
def feed : T.State → List (List β) → T.State × List (List β)
  | s, [] => (s, [])
  | s, chunk :: chunks =>
    ((feed (T.update s chunk).1 chunks).1,
      (T.update s chunk).2 :: (feed (T.update s chunk).1 chunks).2)

/-- Everything given out for a text fed at once, the last piece with it. -/
def output (s : T.State) (text : List β) : List β :=
  (T.update s text).2 ++ T.final (T.update s text).1

/-- Feeding two chunks is feeding their concatenation. -/
structure Streams : Prop where
  nil : ∀ s, T.update s [] = (s, [])
  append : ∀ s a b, T.update s (a ++ b) =
    ((T.update (T.update s a).1 b).1, (T.update s a).2 ++ (T.update (T.update s a).1 b).2)

variable {T}

/-- A cut text leaves the state that the whole text leaves, and gives out the same letters. -/
theorem Streams.feed_eq (h : T.Streams) (chunks : List (List β)) (s : T.State) :
    (T.feed s chunks).1 = (T.update s chunks.flatten).1 ∧
      (T.feed s chunks).2.flatten = (T.update s chunks.flatten).2 := by
  induction chunks generalizing s with
  | nil => simp [feed, h.nil]
  | cons chunk chunks ih =>
    obtain ⟨hstate, hpieces⟩ := ih (T.update s chunk).1
    rw [List.flatten_cons, h.append]
    refine ⟨?_, ?_⟩
    · rw [feed, hstate]
    · rw [feed, List.flatten_cons, hpieces]

theorem Streams.feed_state (h : T.Streams) (chunks : List (List β)) (s : T.State) :
    (T.feed s chunks).1 = (T.update s chunks.flatten).1 :=
  (h.feed_eq chunks s).1

/-- What a cut text gives out in all is the output for the whole text. -/
theorem Streams.feed_output (h : T.Streams) (chunks : List (List β)) (s : T.State) :
    (T.feed s chunks).2.flatten ++ T.final (T.feed s chunks).1 = T.output s chunks.flatten := by
  rw [(h.feed_eq chunks s).1, (h.feed_eq chunks s).2, output]

end StreamTransform

end ZedBot
