import Mathlib.Tactic.SplitIfs
import BuildOrder.Text.Utf8

/-! Decoding starts afresh at a line feed: an ASCII byte ends whatever character it stands in. -/
namespace BuildOrder.Text.Utf8

/-- Inside a character, no ASCII byte is expected. -/
def State.AboveAscii : State → Prop
  | .start => True
  | .within low _ _ _ => 0x80 ≤ low

theorem aboveAscii_first (b : UInt8) : (first b).2.AboveAscii := by
  unfold first
  dsimp only
  split_ifs <;> simp [State.AboveAscii]

theorem aboveAscii_step (state : State) (b : UInt8) : (step state b).2.AboveAscii := by
  cases state with
  | start => exact aboveAscii_first b
  | within low high more code =>
    rw [step]
    split
    next =>
      cases more with
      | zero => trivial
      | succ more => exact UInt8.le_refl 0x80
    next => exact aboveAscii_first b

theorem step_lineFeed (state : State) (h : state.AboveAscii) :
    step state 0x0A = (piecesFrom state [] ++ [some '\n'], .start) := by
  cases state with
  | start => rfl
  | within low high more code =>
    have hlow : ¬(low ≤ 0x0A ∧ (0x0A : UInt8) ≤ high) := fun hwithin =>
      absurd (UInt8.le_trans h hwithin.1) (by decide)
    rw [step, if_neg hlow]
    rfl

theorem piecesFrom_lineFeed {state : State} (h : state.AboveAscii) (before after : List UInt8) :
    piecesFrom state (before ++ 0x0A :: after) =
      piecesFrom state before ++ some '\n' :: pieces after := by
  induction before generalizing state with
  | nil =>
    rw [List.nil_append, piecesFrom, step_lineFeed state h, List.append_assoc]
    rfl
  | cons b before ih =>
    rw [List.cons_append, piecesFrom, piecesFrom, ih (aboveAscii_step state b), List.append_assoc]

/-- No stretch of malformed bytes goes past a line feed. -/
theorem decodeLossy_lineFeed (before after : List UInt8) :
    decodeLossy (before ++ 0x0A :: after) = decodeLossy before ++ '\n' :: decodeLossy after := by
  have hstart : State.start.AboveAscii := trivial
  rw [decodeLossy, pieces, piecesFrom_lineFeed hstart, List.map_append]
  rfl

end BuildOrder.Text.Utf8
