import Mathlib

/-! Codes whose words tell where they end, so that words written one after the other can be read
back: words of a fixed length, words with a terminator, and contents behind their own size. A set
is written as its sorted list. -/

namespace Pooler.Lib

open List Nat Function

variable {α β : Type*}

/-- Equal texts start with equal words. -/
def SelfDelimiting (enc : α → List β) : Prop := ∀ a b s t, enc a ++ s = enc b ++ t → a = b ∧ s = t

/-- The total weight of a text. -/
def weigh (w : β → ℕ) (l : List β) : ℕ := (l.map w).sum

@[simp] theorem weigh_one (l : List β) : weigh (fun _ => 1) l = l.length := by simp [weigh]

theorem weigh_append (w : β → ℕ) (l r : List β) : weigh w (l ++ r) = weigh w l + weigh w r := by
  simp [weigh]

variable {w : β → ℕ}

theorem eq_nil_of_weigh_eq_zero (hw : ∀ b, 0 < w b) {l} (h : weigh w l = 0) : l = [] := by
  cases l with
  | nil => rfl
  | cons b =>
    have := hw b
    simp only [weigh, map_cons, sum_cons] at h
    omega

/-- Two starts of one text that weigh the same are the same. -/
theorem append_inj_of_weigh (hw : ∀ b, 0 < w b) {l r s t}
    (h : l ++ s = r ++ t) (hlr : weigh w l = weigh w r) : l = r ∧ s = t := by
  rcases append_eq_append_iff.1 h with ⟨m, rfl, rfl⟩ | ⟨m, rfl, rfl⟩
  · have hm : m = [] := eq_nil_of_weigh_eq_zero hw (by rw [weigh_append] at hlr; omega)
    simp [hm]
  · have hm : m = [] := eq_nil_of_weigh_eq_zero hw (by rw [weigh_append] at hlr; omega)
    simp [hm]

theorem weigh_utf8Size (text : List Char) : weigh Char.utf8Size text = String.utf8Len text := by
  induction text with
  | nil => rfl
  | cons c text ih => rw [String.utf8Len_cons, ← ih, weigh, map_cons, sum_cons, add_comm, weigh]

/-- Cuts off the start of a given weight, if one ends there. -/
def splitWeighed (w : β → ℕ) : ℕ → List β → Option (List β × List β)
  | 0, l => some ([], l)
  | _ + 1, [] => none
  | n + 1, b :: l => if w b ≤ n + 1 then (splitWeighed w (n + 1 - w b) l).map (fun p => (b :: p.1, p.2)) else none

theorem splitWeighed_append (hw : ∀ b, 0 < w b) (l r : List β) : splitWeighed w (weigh w l) (l ++ r) = some (l, r) := by
  induction l with
  | nil => simp [splitWeighed, weigh]
  | cons b l ih =>
    have hpos := hw b
    obtain ⟨n, hn⟩ : ∃ n, weigh w (b :: l) = n + 1 :=
      exists_eq_add_one.2 (by simp only [weigh, map_cons, sum_cons]; omega)
    have hsum : weigh w (b :: l) = w b + weigh w l := by simp [weigh]
    rw [hn, cons_append, splitWeighed, if_pos (by omega), show n + 1 - w b = weigh w l by omega, ih]
    rfl

namespace SelfDelimiting

variable {enc : α → List β}

/-- Words closed by a letter that they do not hold. -/
theorem of_terminated {c : β} (hc : ∀ a, c ∉ enc a) (hinj : Injective enc) :
    SelfDelimiting (fun a => enc a ++ [c]) := by
  classical
  have hword : ∀ a s, (enc a ++ [c] ++ s).takeWhile (· ≠ c) = enc a := by
    intro a s
    rw [append_assoc, takeWhile_append_of_pos]
    · simp
    · intro x hx
      have hne : x ≠ c := by
        rintro rfl
        exact hc a hx
      simpa using hne
  intro a b s t h
  have hab : enc a = enc b := by rw [← hword a s, h, hword b t]
  obtain rfl := hinj hab
  exact ⟨rfl, append_cancel_left h⟩

/-- A content behind a word that tells its size. -/
theorem sized {head content : α → List β} {w} (hw : ∀ b, 0 < w b) (hinj : Injective content)
    (hhead : ∀ a b s t, head a ++ s = head b ++ t → weigh w (content a) = weigh w (content b) ∧ s = t) :
    SelfDelimiting (fun a => head a ++ content a) := by
  intro a b s t h
  simp only [append_assoc] at h
  obtain ⟨hsize, hr⟩ := hhead a b _ _ h
  obtain ⟨hab, hst⟩ := append_inj_of_weigh hw hr hsize
  exact ⟨hinj hab, hst⟩

section

variable (h : SelfDelimiting enc)
include h

theorem injective : Injective enc := by
  intro a b hab
  exact (h a b [] [] (by rw [hab])).1

theorem append_const (tail : List β) : SelfDelimiting (fun a => enc a ++ tail) := by
  intro a b s t heq
  simp only [append_assoc] at heq
  obtain ⟨rfl, hst⟩ := h a b _ _ heq
  exact ⟨rfl, append_cancel_left hst⟩

theorem pair {γ : Type*} {enc'} (h' : SelfDelimiting enc') : SelfDelimiting (fun p : α × γ => enc p.1 ++ enc' p.2) := by
  intro a b s t heq
  simp only [append_assoc] at heq
  obtain ⟨hfst, hr⟩ := h _ _ _ _ heq
  obtain ⟨hsec, hst⟩ := h' _ _ _ _ hr
  exact ⟨Prod.ext hfst hsec, hst⟩

/-- Equally many words at the front of equal texts are equal. -/
theorem flatMap_append_inj : ∀ {l r : List α} {s t},
    l.length = r.length → l.flatMap enc ++ s = r.flatMap enc ++ t → l = r ∧ s = t := by
  intro l
  induction l with
  | nil =>
    intro r s t hlen heq
    obtain rfl := length_eq_zero_iff.1 hlen.symm
    exact ⟨rfl, heq⟩
  | cons a l ih =>
    intro r s t hlen heq
    cases r with
    | nil => simp at hlen
    | cons b =>
      simp only [flatMap_cons, append_assoc] at heq
      obtain ⟨rfl, hr⟩ := h a b _ _ heq
      obtain ⟨rfl, hst⟩ := ih (by simpa using hlen) hr
      exact ⟨rfl, hst⟩

/-- A text of non-empty words has one reading. -/
theorem flatMap_injective (hne : ∀ a, enc a ≠ []) : Injective (fun l : List α => l.flatMap enc) := by
  intro l
  induction l with
  | nil =>
    intro r heq
    cases r with
    | nil => rfl
    | cons b =>
      simp only [flatMap_nil, flatMap_cons] at heq
      exact absurd (append_eq_nil_iff.1 heq.symm).1 (hne b)
  | cons a l ih =>
    intro r heq
    cases r with
    | nil =>
      simp only [flatMap_nil, flatMap_cons] at heq
      exact absurd (append_eq_nil_iff.1 heq).1 (hne a)
    | cons b =>
      simp only [flatMap_cons] at heq
      obtain ⟨rfl, hr⟩ := h a b _ _ heq
      rw [ih hr]

/-- Words behind their number. -/
theorem counted {head} (hhead : SelfDelimiting head) :
    SelfDelimiting (fun l : List α => head l.length ++ l.flatMap enc) := by
  intro l r s t heq
  simp only [append_assoc] at heq
  obtain ⟨hlen, hr⟩ := hhead _ _ _ _ heq
  exact h.flatMap_append_inj hlen hr

end

end SelfDelimiting

/-- A separator whose first letter it holds only once cannot start inside a word that does not
hold it. -/
theorem eq_nil_of_separator {β : Type*} {c : β} {sep u d s t} (hc : c ∉ sep)
    (hword : ¬ c :: sep <:+: u ++ d) (h : c :: sep ++ s = d ++ (c :: sep ++ t)) : d = [] := by
  rcases append_eq_append_iff.1 h with ⟨a, rfl, -⟩ | ⟨a, hsep, hr⟩
  · exact absurd ⟨u, a, by simp⟩ hword
  cases d with
  | nil => rfl
  | cons =>
    exfalso
    cases a with
    | nil =>
      rw [append_nil] at hsep
      exact hword ⟨u, [], by rw [hsep, append_nil]⟩
    | cons x =>
      -- the rest of the separator would start with its first letter again
      obtain rfl : c = x := (cons.inj hr).1
      refine hc ?_
      rw [(cons.inj hsep).2]
      simp

theorem append_separator_inj {β : Type*} {c : β} {sep u v s t} (hc : c ∉ sep)
    (hu : ¬ c :: sep <:+: u) (hv : ¬ c :: sep <:+: v)
    (h : u ++ (c :: sep ++ s) = v ++ (c :: sep ++ t)) : u = v ∧ s = t := by
  rcases append_eq_append_iff.1 h with ⟨d, rfl, hr⟩ | ⟨d, rfl, hr⟩
  · obtain rfl := eq_nil_of_separator hc hv hr
    exact ⟨by simp, by simpa using hr⟩
  · obtain rfl := eq_nil_of_separator hc hu hr
    exact ⟨by simp, by simpa using hr.symm⟩

/-- The last `k` bytes of a number, most significant first. -/
def beBytes : ℕ → ℕ → List UInt8
  | 0, _ => []
  | k + 1, n => beBytes k (n / 256) ++ [UInt8.ofNat n]

@[simp] theorem length_beBytes (k : ℕ) : ∀ n, (beBytes k n).length = k := by
  induction k with
  | zero => intro n; rfl
  | succ k ih => intro n; simp [beBytes, ih]

theorem beBytes_inj {k : ℕ} : ∀ {n m}, n < 256 ^ k → m < 256 ^ k → beBytes k n = beBytes k m → n = m := by
  induction k with
  | zero => intro n m hn hm _; simp only [pow_zero] at hn hm; omega
  | succ k ih =>
    intro n m hn hm h
    obtain ⟨hhigh, hlow⟩ := append_inj h (by simp)
    have hdiv : n / 256 = m / 256 := by
      apply ih ?_ ?_ hhigh
      · rw [pow_succ] at hn; omega
      · rw [pow_succ] at hm; omega
    have hmod : n % 256 = m % 256 := by
      have := congrArg UInt8.toNat (singleton_inj.1 hlow)
      simpa using this
    omega

/-- A number in decimal. -/
def decimal (n : ℕ) : List Char := Nat.toDigits 10 n

theorem decimal_injective : Injective decimal := by
  intro n m h
  have hrd := congrArg (fun digits => Nat.ofDigitChars 10 digits 0) h
  simpa [decimal] using hrd

theorem decimal_selfDelimiting : SelfDelimiting (fun n => decimal n ++ [':']) := by
  refine SelfDelimiting.of_terminated (fun n hmem => ?_) decimal_injective
  have := isDigit_of_mem_toDigits (by norm_num) (by norm_num) hmem
  simp [Char.isDigit] at this

section Sorted

variable [LinearOrder α]

/-- The elements in order, each once. -/
def sortDedup (l : List α) : List α := (l.insertionSort (· ≤ ·)).destutter (· ≠ ·)

theorem sortDedup_eq_dedup (l : List α) : sortDedup l = (l.insertionSort (· ≤ ·)).dedup :=
  (pairwise_insertionSort (· ≤ ·) l).destutter_eq_dedup

@[simp] theorem mem_sortDedup {l} {x : α} : x ∈ sortDedup l ↔ x ∈ l := by
  rw [sortDedup_eq_dedup, mem_dedup, (perm_insertionSort _ l).mem_iff]

theorem pairwise_sortDedup (l : List α) : (sortDedup l).Pairwise (· < ·) := by
  rw [sortDedup_eq_dedup]
  have hle : (l.insertionSort (· ≤ ·)).dedup.Pairwise (· ≤ ·) :=
    (pairwise_insertionSort (· ≤ ·) l).sublist (dedup_sublist _)
  exact (hle.and (nodup_dedup _)).imp fun h => lt_of_le_of_ne h.1 h.2

/-- Sorting without repetition forgets everything but the set of the elements. -/
theorem sortDedup_eq_iff {l r : List α} : sortDedup l = sortDedup r ↔ ∀ x, x ∈ l ↔ x ∈ r := by
  constructor
  · intro h x
    rw [← mem_sortDedup, h, mem_sortDedup]
  · intro h
    rw [sortDedup_eq_dedup, sortDedup_eq_dedup]
    have hsort : ∀ l : List α, (l.insertionSort (· ≤ ·)).dedup.Pairwise (· ≤ ·) := fun l =>
      (pairwise_insertionSort (· ≤ ·) l).sublist (dedup_sublist _)
    apply List.Perm.eq_of_pairwise (fun _ _ _ _ => le_antisymm) (hsort l) (hsort r)
    rw [perm_ext_iff_of_nodup (nodup_dedup _) (nodup_dedup _)]
    intro x
    rw [← sortDedup_eq_dedup, ← sortDedup_eq_dedup, mem_sortDedup, mem_sortDedup, h]

end Sorted

end Pooler.Lib
