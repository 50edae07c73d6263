import CommandExpr.Expression

/-!
# Places in a composition

The commands of a composition are counted from the left.  A part of it is a
run of neighbouring places: `first` is the place of its first command, and a
pipe's right side begins at `middle`, right after the last command of its
left side, and ends before `stop`.

Pipes are listed in the order in which their left sides end.  A place is in the
right sides of several of them, one within the other.

## Main results

* `Expression.leftmost_mem_zipIdx` — at the middle of a pipe stands the
  command that following left operands of its right side leads to.
* `Expression.covering_pipe` — a right side of a pipe is in that of the pipe and
  of those around it.
-/

namespace CommandExpr

namespace Expression

/-- The number of commands. -/
def size : Expression → Nat
  | simple _ => 1
  | binary _ left right => left.size + right.size

theorem length_leaves (e : Expression) : e.leaves.length = e.size := by
  induction e with
  | simple c => rfl
  | binary op left right ihl ihr =>
      rw [leaves, List.length_append, ihl, ihr, size]

theorem size_pos (e : Expression) : 0 < e.size := by
  induction e with
  | simple c => exact Nat.one_pos
  | binary op left right ihl _ =>
      rw [size]
      omega

end Expression

/-- A pipe inside a composition. -/
structure Pipe where
  /-- The side whose output is handed on. -/
  left : Expression
  /-- The side that receives it. -/
  right : Expression
  /-- How many commands of the whole stand before the pipe. -/
  first : Nat

namespace Pipe

/-- The place of the command that begins the right side. -/
def middle (p : Pipe) : Nat := p.first + p.left.size

/-- The place after the last command of the right side. -/
def stop (p : Pipe) : Nat := p.middle + p.right.size

/-- Does a place belong to the right side? -/
def Covers (p : Pipe) (i : Nat) : Prop := p.middle ≤ i ∧ i < p.stop

instance (p : Pipe) (i : Nat) : Decidable (p.Covers i) :=
  inferInstanceAs (Decidable (_ ∧ _))

theorem first_lt_middle (p : Pipe) : p.first < p.middle := by
  have := p.left.size_pos
  rw [middle]
  omega

theorem middle_lt_stop (p : Pipe) : p.middle < p.stop := by
  have := p.right.size_pos
  rw [stop]
  omega

end Pipe

namespace Expression

/-- The pipes, in the order in which their left sides end, when `n` commands
stand before the composition. -/
def pipesFrom (n : Nat) : Expression → List Pipe
  | simple _ => []
  | binary .pipe left right =>
      left.pipesFrom n ++ ⟨left, right, n⟩ :: right.pipesFrom (n + left.size)
  | binary _ left right => left.pipesFrom n ++ right.pipesFrom (n + left.size)

theorem pipesFrom_simple (n : Nat) (c : Command) :
    (simple c).pipesFrom n = [] := rfl

theorem pipesFrom_pipe (n : Nat) (left right : Expression) :
    (binary .pipe left right).pipesFrom n
      = left.pipesFrom n
          ++ ⟨left, right, n⟩ :: right.pipesFrom (n + left.size) := rfl

theorem pipesFrom_join {op : Operator} (hop : op ≠ .pipe) (n : Nat)
    (left right : Expression) :
    (binary op left right).pipesFrom n
      = left.pipesFrom n ++ right.pipesFrom (n + left.size) := by
  cases op with
  | concat => rfl
  | sequence => rfl
  | pipe => exact absurd rfl hop

/-- Whatever the operator, the pipes of both sides are pipes of the whole, and
the only other one is the root. -/
theorem mem_pipesFrom_binary {op : Operator} {n : Nat} {left right : Expression}
    {p : Pipe} :
    p ∈ (binary op left right).pipesFrom n ↔
      p ∈ left.pipesFrom n ∨ (op = .pipe ∧ p = ⟨left, right, n⟩) ∨
        p ∈ right.pipesFrom (n + left.size) := by
  cases op <;> simp [pipesFrom]

/-- A pipe lies within the places of the composition. -/
theorem bounds_of_mem_pipesFrom {e : Expression} :
    ∀ {n : Nat} {p : Pipe}, p ∈ e.pipesFrom n →
      n ≤ p.first ∧ p.stop ≤ n + e.size := by
  induction e with
  | simple c =>
      intro n p hp
      rw [pipesFrom_simple] at hp
      cases hp
  | binary op left right ihl ihr =>
      intro n p hp
      rw [size]
      rcases mem_pipesFrom_binary.mp hp with hp | ⟨-, rfl⟩ | hp
      · have := ihl hp
        omega
      · simp only [Pipe.stop, Pipe.middle]
        omega
      · have := ihr hp
        omega

/-- The first command stands at the first place. -/
theorem head_mem_zipIdx (e : Expression) (n : Nat) :
    (e.leftmost, n) ∈ e.leaves.zipIdx n := by
  have hhead := e.head?_leaves
  cases hl : e.leaves with
  | nil => simp [hl] at hhead
  | cons c rest =>
      have hc : c = e.leftmost := by simpa [hl] using hhead
      simp [List.zipIdx_cons, hc]

/-- At the middle of a pipe stands the command to which following the left
operands of its right side leads. -/
theorem leftmost_mem_zipIdx {e : Expression} :
    ∀ {n : Nat} {p : Pipe}, p ∈ e.pipesFrom n →
      (p.right.leftmost, p.middle) ∈ e.leaves.zipIdx n := by
  induction e with
  | simple c =>
      intro n p hp
      rw [pipesFrom_simple] at hp
      cases hp
  | binary op left right ihl ihr =>
      intro n p hp
      rw [leaves, List.zipIdx_append, List.mem_append, length_leaves]
      rcases mem_pipesFrom_binary.mp hp with hp | ⟨-, rfl⟩ | hp
      · exact Or.inl (ihl hp)
      · exact Or.inr (right.head_mem_zipIdx _)
      · exact Or.inr (ihr hp)

/-! ## Right sides of pipes -/

/-- The pipes whose right side contains the command at a place, the outer ones
first. -/
def covering (e : Expression) (n i : Nat) : List Pipe :=
  (e.pipesFrom n).filter fun p => p.Covers i

section Covering

variable {op : Operator} {n i : Nat} {left right : Expression}

private theorem covering_eq_nil_of_lt (e : Expression) (hlt : i < n) :
    e.covering n i = [] := by
  refine List.filter_eq_nil_iff.mpr fun p hp => ?_
  have := bounds_of_mem_pipesFrom hp
  have := p.first_lt_middle
  intro hcovers
  obtain ⟨hmiddle, -⟩ := of_decide_eq_true hcovers
  omega

private theorem covering_eq_nil_of_le (e : Expression) (hle : n + e.size ≤ i) :
    e.covering n i = [] := by
  refine List.filter_eq_nil_iff.mpr fun p hp => ?_
  have := bounds_of_mem_pipesFrom hp
  intro hcovers
  obtain ⟨-, hstop⟩ := of_decide_eq_true hcovers
  omega

/-- A command of the left side is in no other right sides than those there. -/
theorem covering_left (hlt : i < n + left.size) :
    (binary op left right).covering n i = left.covering n i := by
  have hright := right.covering_eq_nil_of_lt hlt
  unfold covering at *
  by_cases hop : op = .pipe
  · subst hop
    have hroot : ¬(⟨left, right, n⟩ : Pipe).Covers i := by
      simp only [Pipe.Covers, Pipe.middle]
      omega
    rw [pipesFrom_pipe, List.filter_append,
      List.filter_cons_of_neg (by simpa using hroot), hright, List.append_nil]
  · rw [pipesFrom_join hop, List.filter_append, hright, List.append_nil]

/-- Nor is one of the right side, … -/
theorem covering_join (hop : op ≠ .pipe) (hle : n + left.size ≤ i) :
    (binary op left right).covering n i = right.covering (n + left.size) i := by
  have hleft := left.covering_eq_nil_of_le hle
  unfold covering at *
  rw [pipesFrom_join hop, List.filter_append, hleft, List.nil_append]

/-- … unless it is the right side of a pipe. -/
theorem covering_pipe (hle : n + left.size ≤ i)
    (hlt : i < n + left.size + right.size) :
    (binary .pipe left right).covering n i
      = ⟨left, right, n⟩ :: right.covering (n + left.size) i := by
  have hleft := left.covering_eq_nil_of_le hle
  have hroot : (⟨left, right, n⟩ : Pipe).Covers i := ⟨hle, hlt⟩
  unfold covering at *
  rw [pipesFrom_pipe, List.filter_append, hleft, List.nil_append,
    List.filter_cons_of_pos (by simpa using hroot)]

end Covering

/-- How deep pipes stand in right sides of pipes. -/
def pipeDepth : Expression → Nat
  | simple _ => 0
  | binary .pipe left right => max left.pipeDepth (right.pipeDepth + 1)
  | binary _ left right => max left.pipeDepth right.pipeDepth

theorem pipeDepth_pipe (left right : Expression) :
    (binary .pipe left right).pipeDepth
      = max left.pipeDepth (right.pipeDepth + 1) := rfl

theorem pipeDepth_join {op : Operator} (hop : op ≠ .pipe) (left right : Expression) :
    (binary op left right).pipeDepth = max left.pipeDepth right.pipeDepth := by
  cases op with
  | concat => rfl
  | sequence => rfl
  | pipe => exact absurd rfl hop

theorem pipeDepth_right_le (left right : Expression) :
    1 + right.pipeDepth ≤ (binary .pipe left right).pipeDepth := by
  rw [pipeDepth_pipe, Nat.add_comm]
  exact Nat.le_max_right _ _

theorem one_le_pipeDepth (left right : Expression) :
    1 ≤ (binary .pipe left right).pipeDepth :=
  Nat.le_trans (Nat.le_add_right _ _) (pipeDepth_right_le left right)

theorem pipeDepth_left_le (op : Operator) (left right : Expression) :
    left.pipeDepth ≤ (binary op left right).pipeDepth := by
  cases op <;> exact Nat.le_max_left _ _

end Expression

end CommandExpr
