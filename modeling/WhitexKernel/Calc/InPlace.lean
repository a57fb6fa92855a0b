import WhitexKernel.Calc.Reading
import WhitexKernel.Lib.Bytes

/-!
# InPlace — how `itoa2` writes into its buffer

The two loops of `itoa2` over `str`: one stores the digits, least significant first, and one swaps
them into order.  Together they write the characters of `Calc.itoa2` and a NUL, and nothing else.

* `itoa2InPlace_eq` — what is written;
* `writesDecimal_iff` — it is the canonical decimal, except for the one `int` without a negation.
-/

namespace WhitexKernel
namespace Calc

open Lib.Bytes

/-! ## The loops -/

/-- `'\0'` -/
def nul : Char := Char.ofNat 0

theorem natAbs_sdiv_ten {num : Word} : (num.sdiv 10).toInt.natAbs = num.toInt.natAbs / 10 := by
  have hten : (10 : Word).toInt = 10 := by decide
  rw [BitVec.toInt_sdiv_of_ne_or_ne _ _ (.inr (by decide)), hten, Int.natAbs_tdiv]
  rfl

theorem natAbs_pos {num : Word} (h : num ≠ 0) : 0 < num.toInt.natAbs := by
  have hne : num.toInt ≠ 0 := fun hzero => h (BitVec.eq_of_toInt_eq hzero)
  omega

/-- `while (num != 0) { str[i++] = (num % 10) + '0'; num = num / 10; }` -/
def digitLoop (num : Word) (str : Nat → Char) (i : Nat) : (Nat → Char) × Nat :=
  if num = 0 then (str, i)
  else
    digitLoop (num.sdiv 10)
      (Function.update str i (Char.ofNat ((num.srem 10 + 48).toNat % 256))) (i + 1)
termination_by num.toInt.natAbs
decreasing_by
  rename_i hne
  rw [natAbs_sdiv_ten]
  exact Nat.div_lt_self (natAbs_pos hne) (by decide)

/-- `while (start < end)`, with the exchange of two characters in each round. -/
def swapLoop (str : Nat → Char) (start stop : Nat) : Nat → Char :=
  if start < stop then
    let tmp := str start
    let str := Function.update str start (str stop)
    swapLoop (Function.update str stop tmp) (start + 1) (stop - 1)
  else str
termination_by stop - start

/-- What `str` holds after `itoa2`. -/
def itoa2InPlace (num : Word) (str : Nat → Char) : Nat → Char :=
  if num = 0 then Function.update (Function.update str 0 '0') 1 nul
  else
    let isNeg := num.slt 0
    let digits := digitLoop (if isNeg then -num else num) str 0
    let signed :=
      if isNeg then (Function.update digits.1 digits.2 '-', digits.2 + 1) else digits
    swapLoop (Function.update signed.1 signed.2 nul) 0 (signed.2 - 1)

/-! ## What they write -/

/-- As many digits are stored as the number has, so the bound of `itoaLoop` is no bound. -/
theorem digitLoop_eq {fuel : Nat} {num : Word} (h : num.toInt.natAbs < 10 ^ fuel)
    (str : Nat → Char) (i : Nat) :
    digitLoop num str i =
      (overwrite str i (itoaLoop fuel num), i + (itoaLoop fuel num).length) := by
  -- on the number of digits still possible; a division by ten removes one
  induction fuel generalizing num str i with
  | zero =>
      -- no digit is possible, so the loop of the source has ended too
      have hzero : num = 0 := by
        refine Classical.byContradiction fun hne => ?_
        have hpos := natAbs_pos hne
        omega
      rw [digitLoop, if_pos hzero]
      simp [itoaLoop]
  | succ fuel ih =>
      rw [digitLoop, itoaLoop]
      split
      case isTrue => simp
      case isFalse =>
        have hnext : (num.sdiv 10).toInt.natAbs < 10 ^ fuel := by
          rw [natAbs_sdiv_ten, Nat.div_lt_iff_lt_mul (by decide)]
          exact h
        rw [ih hnext, overwrite_cons, List.length_cons]
        congr 1
        omega

/-- Between the two ends the characters are in the opposite order. -/
theorem swapLoop_apply (str : Nat → Char) (start stop j : Nat) :
    swapLoop str start stop j =
      if start ≤ j ∧ j ≤ stop then str (start + stop - j) else str j := by
  induction str, start, stop using swapLoop.induct with
  | case1 str start stop hlt tmp str' ih =>
      rw [swapLoop, if_pos hlt]
      refine ih.trans ?_
      -- either end, between them, or outside
      by_cases hfirst : j = start
      · subst hfirst
        have hlast : j + stop - j = stop := by omega
        rw [if_neg (by omega), if_pos ⟨Nat.le_refl j, Nat.le_of_lt hlt⟩, hlast,
          Function.update_of_ne (Nat.ne_of_lt hlt)]
        exact Function.update_self _ _ _
      by_cases hlast : j = stop
      · subst hlast
        have hother : start + j - j = start := by omega
        rw [if_neg (by omega), if_pos ⟨Nat.le_of_lt hlt, Nat.le_refl j⟩, hother]
        exact Function.update_self _ _ _
      by_cases hinner : start < j ∧ j < stop
      · have hindex : start + 1 + (stop - 1) - j = start + stop - j := by omega
        rw [if_pos ⟨by omega, by omega⟩, if_pos ⟨by omega, by omega⟩, hindex,
          Function.update_of_ne (by omega)]
        exact Function.update_of_ne (by omega) _ _
      · rw [if_neg (by omega), if_neg (by omega), Function.update_of_ne hlast]
        exact Function.update_of_ne hfirst _ _
  | case2 str start stop hge =>
      rw [swapLoop, if_neg hge]
      split
      case isTrue hj =>
        have hindex : start + stop - j = j := by omega
        rw [hindex]
      case isFalse => rfl

theorem swapLoop_overwrite (str : Nat → Char) {text : List Char} (h : text ≠ [])
    (rest : List Char) :
    swapLoop (overwrite str 0 (text ++ rest)) 0 (text.length - 1) =
      overwrite str 0 (text.reverse ++ rest) := by
  have hpos : 0 < text.length := List.length_pos_iff.2 h
  -- position by position: a written buffer is the text, and what it had behind it
  have hread : ∀ (xs : List Char) (j : Nat), overwrite str 0 xs j = xs.getD j (str j) := by
    intro xs j
    simpa using overwrite_add str 0 xs j
  funext j
  rw [swapLoop_apply, hread, hread, hread]
  simp only [List.getD_eq_getElem?_getD, Nat.zero_le, true_and, Nat.zero_add]
  split
  case isTrue hj =>
    have hin : j < text.length := by omega
    have hmirror : text.length - 1 - j < text.length := by omega
    rw [List.getElem?_append_left hmirror,
      List.getElem?_append_left (by rwa [List.length_reverse]), List.getElem?_reverse hin,
      List.getElem?_eq_getElem hmirror]
    rfl
  case isFalse hj =>
    have hout : text.length ≤ j := by omega
    rw [List.getElem?_append_right hout,
      List.getElem?_append_right (by rwa [List.length_reverse]), List.length_reverse]

/-- The characters of `itoa2` and a NUL behind them are written, and nothing else. -/
theorem itoa2InPlace_eq (num : Word) (str : Nat → Char) :
    itoa2InPlace num str = overwrite str 0 (itoa2 num ++ [nul]) := by
  -- an `int` has at most ten digits, so ten rounds are never too few
  have hdigits : ∀ w : Word, digitLoop w str 0 =
      (overwrite str 0 (itoaLoop 10 w), (itoaLoop 10 w).length) := by
    intro w
    have hle := BitVec.toInt_lt (x := w)
    have hge := BitVec.le_toInt w
    have hdigits : w.toInt.natAbs < 10 ^ 10 := by omega
    simpa using digitLoop_eq hdigits str 0
  have hnonempty : ∀ {w : Word}, w ≠ 0 → itoaLoop 10 w ≠ [] := by
    intro w hw
    rw [itoaLoop, if_neg hw]
    exact List.cons_ne_nil _ _
  unfold itoa2InPlace itoa2
  split
  case isTrue =>
    calc Function.update (Function.update str 0 '0') 1 nul
        = Function.update (overwrite str 0 ['0']) (0 + 1) nul := by
          rw [← overwrite_cons]
          rw [overwrite_nil]
      _ = overwrite str 0 (['0'] ++ [nul]) := overwrite_snoc str 0 ['0'] nul
  case isFalse hne =>
    dsimp only
    -- a negative number gets its sign behind the digits, before they are reversed
    by_cases hneg : num.slt 0 = true
    · have hneg0 : -num ≠ 0 := by simpa using hne
      simp only [hneg, if_true, hdigits]
      have hsign := overwrite_snoc str 0 (itoaLoop 10 (-num)) '-'
      have hend := overwrite_snoc str 0 (itoaLoop 10 (-num) ++ ['-']) nul
      have hsome : itoaLoop 10 (-num) ++ ['-'] ≠ [] := by simp
      have hswap := swapLoop_overwrite str hsome [nul]
      rw [Nat.zero_add] at hsign hend
      rw [List.length_append, List.length_singleton] at hend hswap
      rw [hsign, hend, hswap]
    · simp only [hneg, if_false, hdigits, List.append_nil, Bool.false_eq_true]
      have hend := overwrite_snoc str 0 (itoaLoop 10 num) nul
      rw [Nat.zero_add] at hend
      rw [hend]
      exact swapLoop_overwrite str (hnonempty hne) [nul]

/-! ## Decimals -/

/-- The digits of a number, without leading zeros. -/
structure Numeral (digits : List Char) : Prop where
  ne_nil : digits ≠ []
  isDigit : ∀ c ∈ digits, c.isDigit = true
  lead : digits.head? = some '0' → digits = ['0']

/-- A numeral, or a minus sign and the numeral of another number than zero. -/
inductive Canonical : List Char → Prop
  | nonneg {digits : List Char} (h : Numeral digits) : Canonical digits
  | neg {digits : List Char} (h : Numeral digits) (hne : digits ≠ ['0']) :
      Canonical ('-' :: digits)

/-- A text read as a signed decimal. -/
def readDecimal (text : List Char) : Int :=
  if text.head? = some '-' then -(Nat.ofDigitChars 10 text.tail 0 : Int)
  else Nat.ofDigitChars 10 text 0

/-- From `before` to `after`, the canonical decimal of `n` and a NUL have been written to a buffer, at
most twelve characters, and nothing else. -/
def WritesDecimal (n : Int) (before after : Nat → Char) : Prop :=
  ∃ text : List Char, Canonical text ∧ readDecimal text = n ∧ text.length + 1 ≤ 12 ∧
    after = overwrite before 0 (text ++ [nul])

/-- A positive number does not start with a zero. -/
theorem head?_toDigits {n : Nat} (hpos : 0 < n) : (Nat.toDigits 10 n).head? ≠ some '0' := by
  induction n using Nat.strongRecOn with
  | ind n ih =>
      rw [Nat.toDigits_eq_if (by decide)]
      split
      case isTrue hlt =>
        have hdigit : ∀ k < 10, 0 < k → k.digitChar ≠ '0' := by decide
        simpa using hdigit n hlt hpos
      case isFalse hge =>
        have hrest := ih (n / 10) (by omega) (by omega)
        obtain ⟨c, digits, hdigits⟩ := List.exists_cons_of_ne_nil (Nat.toDigits_ne_nil (b := 10)
          (n := n / 10))
        rw [hdigits] at hrest ⊢
        exact hrest

theorem numeral_toDigits (n : Nat) : Numeral (Nat.toDigits 10 n) := by
  refine ⟨Nat.toDigits_ne_nil, fun c hc => ?_, fun hlead => ?_⟩
  · exact Nat.isDigit_of_mem_toDigits (by decide) (by decide) hc
  · rcases Nat.eq_zero_or_pos n with rfl | hpos
    · rfl
    · exact absurd hlead (head?_toDigits hpos)

theorem toDigits_ne_zero {n : Nat} (hpos : 0 < n) : Nat.toDigits 10 n ≠ ['0'] := by
  intro h
  have hhead := head?_toDigits hpos
  rw [h] at hhead
  exact hhead rfl

/-- A numeral does not start with a minus sign. -/
theorem Numeral.head?_ne {digits : List Char} (h : Numeral digits) : digits.head? ≠ some '-' := by
  intro hhead
  have hdigit := h.isDigit '-' (List.mem_of_head? hhead)
  exact absurd hdigit (by decide)

theorem readDecimal_nonneg (n : Nat) : readDecimal (Nat.toDigits 10 n) = n := by
  unfold readDecimal
  rw [if_neg (numeral_toDigits n).head?_ne, Nat.ofDigitChars_ten_toDigits]

theorem readDecimal_neg (n : Nat) : readDecimal ('-' :: Nat.toDigits 10 n) = -(n : Int) := by
  unfold readDecimal
  rw [List.head?_cons, if_pos rfl, List.tail_cons, Nat.ofDigitChars_ten_toDigits]

/-- What `itoa2` writes is the canonical decimal of every `int` but `INT_MIN`. -/
theorem canonical_itoa2 {num : Word} (h : num ≠ intMin) :
    Canonical (itoa2 num) ∧ readDecimal (itoa2 num) = num.toInt := by
  have hlt : num.toNat < 2 ^ 32 := num.isLt
  have hmin : num.toNat ≠ 2 ^ 31 := fun heq => h (BitVec.eq_of_toNat_eq heq)
  rw [BitVec.toInt_eq_toNat_cond]
  -- zero has a branch of its own, and the others differ in the sign
  by_cases hzero : num = 0
  · subst hzero
    exact ⟨.nonneg (numeral_toDigits 0), readDecimal_nonneg 0⟩
  by_cases hneg : num.toNat < 2 ^ 31
  · have htext : itoa2 num = Nat.toDigits 10 num.toNat := by
      have hstring := itoa2_of_nonneg hneg hzero
      rw [Nat.repr_eq_ofList_toDigits] at hstring
      exact String.ofList_injective hstring
    rw [htext, if_pos (by omega)]
    exact ⟨.nonneg (numeral_toDigits _), readDecimal_nonneg _⟩
  · have htext : itoa2 num = '-' :: Nat.toDigits 10 (2 ^ 32 - num.toNat) := by
      -- here `INT_MIN` is excluded: the negation of any other `int` is positive
      have hhigh : 2 ^ 31 < num.toNat := by omega
      have hstring := itoa2_of_neg hhigh
      rw [Nat.repr_eq_ofList_toDigits] at hstring
      have hcons : "-" ++ String.ofList (Nat.toDigits 10 (2 ^ 32 - num.toNat)) =
          String.ofList ('-' :: Nat.toDigits 10 (2 ^ 32 - num.toNat)) := by
        rw [← List.singleton_append, String.ofList_append]
      rw [hcons] at hstring
      exact String.ofList_injective hstring
    rw [htext, if_neg (by omega)]
    refine ⟨.neg (numeral_toDigits _) (toDigits_ne_zero (by omega)), ?_⟩
    rw [readDecimal_neg]
    omega

/-- The negation of `INT_MIN` is itself, and its remainders are negative. -/
theorem itoa2_intMin : itoa2 intMin = ['-', '.', '/', ',', ')', ',', '(', '-', '*', ',', '('] := by
  decide

theorem not_writesDecimal_intMin (before : Nat → Char) :
    ¬ WritesDecimal intMin.toInt before (itoa2InPlace intMin before) := by
  rintro ⟨text, hcanonical, -, -, hwritten⟩
  rw [itoa2InPlace_eq, itoa2_intMin] at hwritten
  have hread : ∀ (xs : List Char) (j : Nat), overwrite before 0 xs j = xs.getD j (before j) := by
    intro xs j
    simpa using overwrite_add before 0 xs j
  -- a dot stands where the first digit should be
  have hfirst := congrFun hwritten 0
  have hsecond := congrFun hwritten 1
  rw [hread, hread] at hfirst hsecond
  cases hcanonical with
  | nonneg h =>
      cases text with
      | nil => exact h.ne_nil rfl
      | cons c rest =>
          have hc : '-' = c := hfirst
          exact h.head?_ne (by rw [← hc]; rfl)
  | @neg digits h hne =>
      cases digits with
      | nil => exact h.ne_nil rfl
      | cons c rest =>
          have hc : '.' = c := hsecond
          have hdigit := h.isDigit c (List.mem_cons_self ..)
          rw [← hc] at hdigit
          exact absurd hdigit (by decide)

/-- `itoa2` writes the canonical decimal of an `int` exactly when the `int` has a negation. -/
theorem writesDecimal_iff (num : Word) (before : Nat → Char) :
    WritesDecimal num.toInt before (itoa2InPlace num before) ↔ num ≠ intMin := by
  constructor
  · rintro h rfl
    exact not_writesDecimal_intMin before h
  · intro h
    obtain ⟨hcanonical, hread⟩ := canonical_itoa2 h
    have hlength := itoa2_length num
    exact ⟨itoa2 num, hcanonical, hread, by omega, itoa2InPlace_eq num before⟩

/-- `itoa2` writes `-./,),(-*,(` for `INT_MIN`. -/
theorem writesDecimal_false :
    ¬ ∀ (num : Word) (before : Nat → Char),
      WritesDecimal num.toInt before (itoa2InPlace num before) := by
  intro h
  exact not_writesDecimal_intMin (fun _ => nul) (h intMin _)

end Calc
end WhitexKernel
