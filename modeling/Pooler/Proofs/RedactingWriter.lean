import Pooler.Spec.Observe.Redaction

/-! The writer of the log: how the bytes are cut into writes has no influence on what goes out, so a
secret split over two writes is scanned in one piece. -/

namespace Pooler.RedactingWriter

open List

variable (fromUtf8Lossy : List UInt8 → Text) (policy : RedactionPolicy)

/-- The complete lines of some bytes, and what follows the last of them. -/
def cutLines : List UInt8 → List (List UInt8) × List UInt8
  | [] => ([], [])
  | b :: bytes =>
    if b = newline then ([b] :: (cutLines bytes).1, (cutLines bytes).2)
    else match (cutLines bytes).1 with
      | [] => ([], b :: (cutLines bytes).2)
      | line :: lines => ((b :: line) :: lines, (cutLines bytes).2)

variable (bytes : List UInt8)

theorem not_mem_rest : newline ∉ (cutLines bytes).2 := by
  induction bytes with
  | nil => exact not_mem_nil
  | cons b bytes ih =>
    rw [cutLines]
    split
    · exact ih
    next hb =>
      split
      · simp [Ne.symm hb, ih]
      · exact ih

theorem cutLines_of_not_mem {bytes} (h : newline ∉ bytes) : cutLines bytes = ([], bytes) := by
  induction bytes with
  | nil => rfl
  | cons b bytes ih =>
    have hb : b ≠ newline := fun he => h (he ▸ mem_cons_self)
    rw [cutLines, ih (fun hm => h (mem_cons_of_mem _ hm))]
    simp [hb]

theorem cutLines_line {line} (h : newline ∉ line) (bytes : List UInt8) :
    cutLines (line ++ newline :: bytes) = ((line ++ [newline]) :: (cutLines bytes).1, (cutLines bytes).2) := by
  induction line with
  | nil => simp [cutLines]
  | cons b line ih =>
    have hb : b ≠ newline := fun he => h (he ▸ mem_cons_self)
    rw [cons_append, cutLines, ih (fun hm => h (mem_cons_of_mem _ hm))]
    simp [hb]

theorem eq_line_append {bytes} {n : ℕ} (h : bytes.findIdx? (· = newline) = some n) :
    ∃ line rest, newline ∉ line ∧ bytes = line ++ newline :: rest ∧ line.length = n := by
  rw [findIdx?_eq_some_iff_getElem] at h
  obtain ⟨hlt, hn, hbef⟩ := h
  refine ⟨bytes.take n, bytes.drop (n + 1), ?_, ?_, by simp; omega⟩
  · intro hmem
    obtain ⟨i, hi, hg⟩ := mem_take_iff_getElem.1 hmem
    have := hbef i (by omega)
    simp [hg] at this
  · have hat : bytes[n] = newline := by simpa using hn
    rw [← hat, getElem_cons_drop, take_append_drop]

theorem cutLines_append : ∀ more, cutLines (bytes ++ more) =
    ((cutLines bytes).1 ++ (cutLines ((cutLines bytes).2 ++ more)).1, (cutLines ((cutLines bytes).2 ++ more)).2) := by
  induction hlen : bytes.length using Nat.strong_induction_on generalizing bytes with
  | _ n ih =>
    intro more
    by_cases hmem : newline ∈ bytes
    · obtain ⟨line, rest, rfl, hline⟩ := eq_append_cons_of_mem hmem
      have hr := ih rest.length (by simp at hlen; omega) rest rfl more
      rw [append_assoc, cons_append, cutLines_line hline, cutLines_line hline, hr]
      simp
    · rw [cutLines_of_not_mem hmem]
      simp

/-- What a complete line or the rest of the bytes becomes. -/
def sanitizeBytes : Text := policy.sanitizeText (fromUtf8Lossy bytes)

theorem drain_eq : ∀ fuel writer, writer.pending.length ≤ fuel →
    drain fromUtf8Lossy policy fuel writer = ⟨(cutLines writer.pending).2,
      writer.written ++ (cutLines writer.pending).1.flatMap (sanitizeBytes fromUtf8Lossy policy)⟩ := by
  intro fuel
  induction fuel with
  | zero =>
    intro writer hfuel
    have hemp : writer.pending = [] := length_eq_zero_iff.1 (by omega)
    cases writer
    simp only at hemp
    simp [drain, hemp, cutLines]
  | succ fuel ih =>
    intro writer hfuel
    rw [drain]
    split
    next hnone =>
      have hnot : newline ∉ writer.pending := fun hmem => by
        have := findIdx?_eq_none_iff.1 hnone newline hmem
        simp at this
      rw [cutLines_of_not_mem hnot]
      simp
    next hsome =>
      obtain ⟨line, rest, hline, hpend, rfl⟩ := eq_line_append hsome
      have hdrop : writer.pending.drop (line.length + 1) = rest := by rw [hpend]; simp
      have htake : writer.pending.take (line.length + 1) = line ++ [newline] := by
        rw [hpend, take_append]
        simp
      rw [hdrop, htake, ih _ (by rw [hpend] at hfuel; simp at hfuel; simp [emit]; omega), hpend, cutLines_line hline]
      simp [emit, sanitizeBytes]

theorem write_eq (writer : RedactingWriter) (buffer : List UInt8) : write fromUtf8Lossy policy writer buffer =
    ⟨(cutLines (writer.pending ++ buffer)).2, writer.written ++
      (cutLines (writer.pending ++ buffer)).1.flatMap (sanitizeBytes fromUtf8Lossy policy)⟩ := by
  rw [write, drain_eq]
  exact le_rfl

theorem write_write (writer : RedactingWriter) (first second : List UInt8) :
    write fromUtf8Lossy policy (write fromUtf8Lossy policy writer first) second =
      write fromUtf8Lossy policy writer (first ++ second) := by
  rw [write_eq, write_eq, write_eq, ← append_assoc, cutLines_append (writer.pending ++ first)]
  simp

variable (buffers : List (List UInt8))

/-- What went out after any writes is what one write of all the bytes sends out. -/
theorem foldl_write : ∀ writer,
    newline ∉ writer.pending → buffers.foldl (write fromUtf8Lossy policy) writer =
      write fromUtf8Lossy policy writer buffers.flatten := by
  induction buffers with
  | nil =>
    intro writer hpend
    rw [foldl_nil, flatten_nil, write_eq, append_nil, cutLines_of_not_mem hpend]
    simp
  | cons buffer buffers ih =>
    intro writer hpend
    rw [foldl_cons, ih _ (by rw [write_eq]; exact not_mem_rest _), write_write, flatten_cons]

/-- After a flush all bytes went out, line by line, and each line was sanitized as a whole. -/
theorem flush_foldl_write :
    flush fromUtf8Lossy policy (buffers.foldl (write fromUtf8Lossy policy) ⟨[], []⟩) =
      ⟨[], (cutLines buffers.flatten).1.flatMap (sanitizeBytes fromUtf8Lossy policy) ++
        if (cutLines buffers.flatten).2.isEmpty then []
        else sanitizeBytes fromUtf8Lossy policy (cutLines buffers.flatten).2⟩ := by
  rw [foldl_write _ _ _ _ not_mem_nil, write_eq, flush]
  simp only [nil_append]
  split
  next hemp => simp [isEmpty_iff.1 hemp]
  · simp [emit, sanitizeBytes]

end Pooler.RedactingWriter
