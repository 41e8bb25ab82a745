import LayoutLine.Session

/-!
# The numbers of a session

A session answers each call for numbers with the sum of all that was asked for before, cut off once
at the last number. As long as that sum is not cut off, the numbers of a call begin where those of
the call before it end, so no number is handed out twice.
-/

namespace LayoutLine

/-- A call for numbers. -/
inductive NumberCall where
  /-- For a single number. -/
  | one
  /-- For a block of numbers, which may be empty. -/
  | block (count : Nat)

/-- How many numbers the call asks for. -/
def NumberCall.count : NumberCall → Nat
  | .one => 1
  | .block count => count

/-- How many numbers the calls ask for together. -/
def NumberCall.total : List NumberCall → Nat
  | [] => 0
  | call :: calls => call.count + total calls

@[simp] theorem NumberCall.total_nil : total [] = 0 := rfl

@[simp] theorem NumberCall.total_cons (call : NumberCall) (calls : List NumberCall) :
    total (call :: calls) = call.count + total calls := rfl

/-- Calls ask for what their parts ask for together. -/
theorem NumberCall.total_append (a b : List NumberCall) : total (a ++ b) = total a + total b := by
  induction a with
  | nil => simp
  | cons call calls ih => rw [List.cons_append, total_cons, total_cons, ih, Nat.add_assoc]

namespace Session

/-- Answers calls one after the other with the first number of each, and gives the session after
them. -/
def answerAll (s : Session) : List NumberCall → List SymbolId × Session
  | [] => ([], s)
  | call :: calls =>
    let first := s.take call.count
    let later := first.2.answerAll calls
    (first.1 :: later.1, later.2)

/-- The numbers that each call may use: as many as it asked for, from its answer on. -/
def blocks (answers : List SymbolId) (calls : List NumberCall) : List (List Nat) :=
  List.zipWith (fun first call => List.range' first.val call.count) answers calls

variable (s : Session) (calls : List NumberCall)

/-- Calls leave the session as it was, but for the numbers they take. -/
theorem answerAll_session :
    (s.answerAll calls).2 = { s with ids := s.ids.skip (NumberCall.total calls) } := by
  induction calls generalizing s with
  | nil => simp [answerAll]
  | cons call calls ih =>
    simp only [answerAll, take]
    rw [ih, IdSource.skip_skip, NumberCall.total_cons]

/-- A call is answered with the number that lies as far on as the calls before it ask for. -/
theorem answerAll_numbers :
    (s.answerAll calls).1 =
      (List.range calls.length).map fun k =>
        s.ids.next.advance (NumberCall.total (calls.take k)) := by
  induction calls generalizing s with
  | nil => rfl
  | cons call calls ih =>
    have hlater := ih (s.take call.count).2
    simp only [answerAll, take, IdSource.skip] at hlater ⊢
    rw [hlater, List.length_cons, List.range_succ_eq_map, List.map_cons, List.map_map]
    simp only [List.take_zero, NumberCall.total_nil, SymbolId.advance_zero, List.cons.injEq,
      true_and]
    refine List.map_congr_left fun k _ => ?_
    simp only [Function.comp_apply, List.take_succ_cons, NumberCall.total_cons,
      SymbolId.advance_advance]

/-- Before the numbers run out, the blocks of calls make up one run of numbers. -/
theorem flatten_blocks (h : s.ids.next.val + NumberCall.total calls ≤ 4294967295) :
    (blocks (s.answerAll calls).1 calls).flatten =
      List.range' s.ids.next.val (NumberCall.total calls) := by
  induction calls generalizing s with
  | nil => rfl
  | cons call calls ih =>
    rw [NumberCall.total_cons] at h ⊢
    have hnext : (s.take call.count).2.ids.next.val = s.ids.next.val + call.count := by
      simp only [take, IdSource.skip, SymbolId.val_advance]
      omega
    have hlater := ih (s.take call.count).2 (by omega)
    rw [hnext] at hlater
    simp only [answerAll, blocks, List.zipWith_cons_cons, List.flatten_cons] at hlater ⊢
    rw [hlater]
    exact List.range'_append_1

/-- After a reset, each call for numbers is answered with the sum of what the calls before it ask
for, cut off once at the last number, and so is the number that is next. That number never falls,
whatever the session started with. As long as no more numbers are asked for than there are, the
blocks of the calls are disjoint, follow one another in the order of the calls, leave no number out
and end where the next number is. -/
theorem numbers_handed_out_once :
    (s.resetIds.answerAll calls).1.map Fin.val =
      (List.range calls.length).map (fun k => min (NumberCall.total (calls.take k)) 4294967295) ∧
    (s.resetIds.answerAll calls).2.ids.next.val = min (NumberCall.total calls) 4294967295 ∧
    (∀ later, (s.answerAll calls).2.ids.next ≤ (s.answerAll (calls ++ later)).2.ids.next) ∧
    (NumberCall.total calls ≤ 4294967295 →
      (blocks (s.resetIds.answerAll calls).1 calls).flatten =
        List.range (NumberCall.total calls) ∧
      (blocks (s.resetIds.answerAll calls).1 calls).Pairwise
        (fun earlier later => ∀ m ∈ earlier, ∀ n ∈ later, m < n) ∧
      (s.resetIds.answerAll calls).2.ids.next.val = NumberCall.total calls) := by
  have hstart (count : Nat) : (s.resetIds.ids.next.advance count).val = min count 4294967295 := by
    simp only [resetIds, IdSource.start, SymbolId.val_advance, Nat.zero_add]
  have hnext : (s.resetIds.answerAll calls).2.ids.next.val =
      min (NumberCall.total calls) 4294967295 := by
    rw [answerAll_session]
    exact hstart _
  refine ⟨?_, hnext, ?_, ?_⟩
  · rw [answerAll_numbers, List.map_map]
    exact List.map_congr_left fun k _ => hstart _
  · intro later
    rw [Fin.le_def, answerAll_session, answerAll_session, NumberCall.total_append]
    simp only [IdSource.skip, SymbolId.val_advance]
    omega
  · intro h
    have hzero : s.resetIds.ids.next.val = 0 := rfl
    have hflat := flatten_blocks s.resetIds calls (by omega)
    rw [hzero, ← List.range_eq_range'] at hflat
    have hordered : (List.range (NumberCall.total calls)).Pairwise (· < ·) :=
      List.pairwise_lt_range
    rw [← hflat, List.pairwise_flatten] at hordered
    exact ⟨hflat, hordered.2, by omega⟩

/-- All numbers but the last, an empty block and the last one, after other numbers were taken. -/
theorem numbers_handed_out_once_to_the_last :
    let s : Session := (({} : Session).take 7).2
    let calls : List NumberCall := [.block 4294967294, .block 0, .one]
    NumberCall.total calls ≤ 4294967295 ∧
      (s.resetIds.answerAll calls).1.map Fin.val = [0, 4294967294, 4294967294] ∧
      (blocks (s.resetIds.answerAll calls).1 calls).flatten = List.range 4294967295 ∧
      (s.resetIds.answerAll calls).2.ids.next.val = 4294967295 := by
  intro s calls
  have htotal : NumberCall.total calls ≤ 4294967295 := by decide
  obtain ⟨hanswers, -, -, hblocks⟩ := numbers_handed_out_once s calls
  obtain ⟨hflat, -, hnext⟩ := hblocks htotal
  exact ⟨htotal, hanswers, hflat, hnext⟩

end Session
end LayoutLine
