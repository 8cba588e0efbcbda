import MarvellW8897.Libc.Strtoull
import Mathlib.Data.List.Induction

/-!
# What `strtoull` reads with base 0

The numerals of C, and what may stand in front of one.

* `CNumeral` — a decimal, octal or hexadecimal numeral; `cNumeral_iff` ties it to `detectBase`.
* `Reads` — blanks, a sign and a numeral; `strtoull_iff` says that these are the texts converted
  to their end.
* `octal_le_decimal`, `octal_of_lt` — how far the readings of one text in the bases 8 and 10 agree.
-/

namespace Libc

variable {base acc n m d : Nat} {s text : List UInt8} {c : UInt8}

/-! ## Digits -/

theorem digit?_eq_some : digit? base c = some d ↔ digitValue c = some d ∧ d < base := by
  simp [digit?, Option.filter_eq_some_iff]

/-- A digit of a base is one of every larger base. -/
theorem digit?_mono {base' : Nat} (h : digit? base c = some d) (hle : base ≤ base') :
    digit? base' c = some d := by
  obtain ⟨hv, hlt⟩ := digit?_eq_some.mp h
  exact digit?_eq_some.mpr ⟨hv, Nat.lt_of_lt_of_le hlt hle⟩

/-- The number that a text of digits denotes, after `acc`. -/
def digitsFrom (base acc : Nat) : List UInt8 → Option Nat
  | [] => some acc
  | c :: s => (digit? base c).bind (fun d => digitsFrom base (acc * base + d) s)

theorem digitsFrom_append (s t : List UInt8) :
    digitsFrom base acc (s ++ t) =
      (digitsFrom base acc s).bind (fun n => digitsFrom base n t) := by
  induction s generalizing acc with
  | nil => rfl
  | cons c s ih =>
    rw [List.cons_append, digitsFrom, digitsFrom]
    cases digit? base c with
    | none => rfl
    | some d => exact ih

theorem digitsFrom_snoc_eq_some :
    digitsFrom base acc (s ++ [c]) = some n ↔
      ∃ m d, digitsFrom base acc s = some m ∧ digit? base c = some d ∧ n = m * base + d := by
  rw [digitsFrom_append]
  simp only [digitsFrom, Option.bind_eq_some_iff, Option.some.injEq]
  constructor
  · rintro ⟨m, hm, d, hd, rfl⟩
    exact ⟨m, d, hm, hd, rfl⟩
  · rintro ⟨m, d, hm, hd, rfl⟩
    exact ⟨m, hm, d, hd, rfl⟩

/-- `readDigits` reaches the end exactly on a text of digits. -/
theorem readDigits_eq_nil_iff :
    readDigits base acc s = (n, []) ↔ digitsFrom base acc s = some n := by
  induction s generalizing acc with
  | nil => simp [readDigits, digitsFrom]
  | cons c s ih =>
    rw [readDigits, digitsFrom]
    cases digit? base c with
    | none => simp
    | some d => exact ih

/-- A numeral of `base`: one digit or more. -/
def Numeral (base : Nat) (s : List UInt8) (n : Nat) : Prop := s ≠ [] ∧ digitsFrom base 0 s = some n

theorem Numeral.unique (h : Numeral base s n) (h' : Numeral base s m) : n = m :=
  Option.some.inj (h.2.symm.trans h'.2)

theorem Numeral.head {s : List UInt8} (h : Numeral base (c :: s) n) :
    ∃ d, digit? base c = some d := by
  obtain ⟨d, hd, -⟩ := Option.bind_eq_some_iff.mp h.2
  exact ⟨d, hd⟩

/-! ## One text in two bases -/

/-- Octal digits are decimal digits, and denote no more in base 8 than in base 10. -/
theorem octal_le_decimal (h : digitsFrom 8 0 s = some m) :
    ∃ n, digitsFrom 10 0 s = some n ∧ m ≤ n ∧ (m = n → n < 8) := by
  induction s using List.reverseRecOn generalizing m with
  | nil =>
    obtain rfl : 0 = m := Option.some.inj h
    exact ⟨0, rfl, Nat.le_refl 0, fun _ => by omega⟩
  | append_singleton s c ih =>
    obtain ⟨m', d, hm', hd, rfl⟩ := digitsFrom_snoc_eq_some.mp h
    obtain ⟨n', hn', hle, -⟩ := ih hm'
    have hlt : d < 8 := (digit?_eq_some.mp hd).2
    refine ⟨n' * 10 + d, digitsFrom_snoc_eq_some.mpr ⟨n', d, hn', digit?_mono hd (by omega), rfl⟩,
      by omega, ?_⟩
    intro he
    omega

/-- Below 8, a decimal reading is an octal one: only the last digit is not a zero. -/
theorem octal_of_lt (h : digitsFrom 10 0 s = some n) (hn : n < 8) : digitsFrom 8 0 s = some n := by
  induction s using List.reverseRecOn generalizing n with
  | nil => exact h
  | append_singleton s c ih =>
    obtain ⟨n', d, hn', hd, rfl⟩ := digitsFrom_snoc_eq_some.mp h
    obtain rfl : n' = 0 := by omega
    have hd' : digit? 8 c = some d :=
      digit?_eq_some.mpr ⟨(digit?_eq_some.mp hd).1, by omega⟩
    exact digitsFrom_snoc_eq_some.mpr ⟨0, d, ih hn' (by omega), hd', rfl⟩

/-! ## The numerals of C -/

/-- `x` or `X`. -/
def IsX (c : UInt8) : Prop := c = ascii 'x' ∨ c = ascii 'X'

/-- The numerals of C: a leading zero makes one octal, and `0x` hexadecimal. -/
inductive CNumeral : List UInt8 → Nat → Prop where
  | decimal {s : List UInt8} {n : Nat} (h : Numeral 10 s n) (hz : s.head? ≠ some (ascii '0')) :
      CNumeral s n
  | octal {s : List UInt8} {n : Nat} (h : Numeral 8 s n) (hz : s.head? = some (ascii '0')) :
      CNumeral s n
  | hex {x : UInt8} {s : List UInt8} {n : Nat} (hx : IsX x) (h : Numeral 16 s n) :
      CNumeral (ascii '0' :: x :: s) n

theorem digitValue_of_isX (h : IsX c) : digitValue c = some 33 := by
  rcases h with rfl | rfl <;> rfl

/-- No decimal digit, so no numeral of a base up to 10 goes on with it. -/
theorem not_digit_of_isX (h : IsX c) (hbase : base ≤ 10) : digit? base c = none := by
  rw [Option.eq_none_iff_forall_ne_some]
  intro d hd
  obtain ⟨hv, hlt⟩ := digit?_eq_some.mp hd
  rw [digitValue_of_isX h] at hv
  have := Option.some.inj hv
  omega

theorem not_numeral_of_isX (h : IsX c) (hbase : base ≤ 10) (z : UInt8) :
    ¬ Numeral base (z :: c :: s) n := by
  rintro ⟨-, hs⟩
  obtain ⟨d, -, hs⟩ := Option.bind_eq_some_iff.mp hs
  obtain ⟨d', hd', -⟩ := Option.bind_eq_some_iff.mp hs
  rw [not_digit_of_isX h hbase] at hd'
  simp at hd'

theorem startsHex_iff : startsHex s = true ↔
    ∃ x c t, s = ascii '0' :: x :: c :: t ∧ IsX x ∧ (digit? 16 c).isSome = true := by
  constructor
  · intro h
    match s, h with
    | z :: x :: c :: t, h =>
      simp only [startsHex, Bool.and_eq_true, Bool.or_eq_true, beq_iff_eq] at h
      obtain ⟨⟨rfl, hx⟩, hc⟩ := h
      exact ⟨x, c, t, rfl, hx, hc⟩
  · rintro ⟨x, c, t, rfl, hx, hc⟩
    rcases hx with rfl | rfl <;> simpa [startsHex] using hc

/-- The base that `detectBase` finds is the one the grammar gives. -/
theorem cNumeral_iff : CNumeral s n ↔ Numeral (detectBase s).1 (detectBase s).2 n := by
  cases hhex : startsHex s with
  | true =>
    obtain ⟨x, c, t, rfl, hx, -⟩ := startsHex_iff.mp hhex
    rw [detectBase, if_pos hhex]
    constructor
    · intro h
      cases h with
      | decimal h hz => simp at hz
      | octal h hz => exact absurd h (not_numeral_of_isX hx (by omega) _)
      | hex hx h => exact h
    · exact CNumeral.hex hx
  | false =>
    have hnot : ∀ x t, IsX x → s = ascii '0' :: x :: t → ¬ Numeral 16 t n := by
      rintro x t hx rfl h
      cases t with
      | nil => exact h.1 rfl
      | cons c t =>
        obtain ⟨d, hd⟩ := h.head
        have hstarts := startsHex_iff.mpr ⟨x, c, t, rfl, hx, by simp [hd]⟩
        simp [hhex] at hstarts
    by_cases hzero : s.head? = some (ascii '0')
    · rw [detectBase, if_neg (by simp [hhex]), if_pos hzero]
      constructor
      · intro h
        cases h with
        | decimal h hz => exact absurd hzero hz
        | octal h hz => exact h
        | hex hx h => exact absurd h (hnot _ _ hx rfl)
      · exact fun h => CNumeral.octal h hzero
    · rw [detectBase, if_neg (by simp [hhex]), if_neg hzero]
      constructor
      · intro h
        cases h with
        | decimal h hz => exact h
        | octal h hz => exact absurd hz hzero
        | hex hx h => simp at hzero
      · exact fun h => CNumeral.decimal h hzero

/-- Decimal digits behind a leading zero are read in base 8, if at all. -/
theorem CNumeral.octal_of_decimal (h : CNumeral s n) (hz : s.head? = some (ascii '0'))
    (hten : Numeral 10 s m) : Numeral 8 s n := by
  cases h with
  | decimal _ hnz => exact absurd hz hnz
  | octal height _ => exact height
  | hex hx _ => exact absurd hten (not_numeral_of_isX hx (Nat.le_refl 10) _)

/-- A numeral starts with a digit. -/
theorem CNumeral.head (h : CNumeral s n) : ∃ c t d, s = c :: t ∧ digitValue c = some d := by
  have hdigit : ∀ {base : Nat}, Numeral base s n → ∃ c t d, s = c :: t ∧ digitValue c = some d := by
    intro base h
    cases s with
    | nil => exact absurd rfl h.1
    | cons c t =>
      obtain ⟨d, hd⟩ := h.head
      exact ⟨c, t, d, rfl, (digit?_eq_some.mp hd).1⟩
  cases h with
  | decimal h _ => exact hdigit h
  | octal h _ => exact hdigit h
  | hex hx h => exact ⟨_, _, 0, rfl, rfl⟩

/-! ## What may stand in front -/

/-- The optional sign, and whether it is a minus. -/
inductive Sign : List UInt8 → Bool → Prop where
  | none : Sign [] false
  | plus : Sign [ascii '+'] false
  | minus : Sign [ascii '-'] true

/-- What the conversion makes of a numeral: behind a minus, its negation modulo `2^64`. -/
def signedValue (negative : Bool) (n : Nat) : Nat :=
  if negative then (UInt64.size - n) % UInt64.size else n

/-- The text is a numeral behind `lead`, which is blanks and a sign, and is converted to `v`. -/
def Reads (lead text : List UInt8) (v : Nat) : Prop :=
  ∃ blanks sign negative s n, lead = blanks ++ sign ∧ text = lead ++ s ∧
    (∀ c ∈ blanks, isSpace c = true) ∧ Sign sign negative ∧ CNumeral s n ∧ n ≤ kUllongMax ∧
    v = signedValue negative n

theorem not_digit_of_isSpace (h : isSpace c = true) : digitValue c = none := by
  have hall : ∀ k < 256, isSpace (UInt8.ofNat k) = true → digitValue (UInt8.ofNat k) = none := by
    decide +kernel
  have hc := hall c.toNat c.toNat_lt
  rw [UInt8.ofNat_toNat] at hc
  exact hc h

/-- Behind the sign stands what `readSign` leaves. -/
theorem readSign_append {sign : List UInt8} {negative : Bool} (h : Sign sign negative)
    (hs : CNumeral s n) : readSign (sign ++ s) = (negative, s) := by
  cases h with
  | none =>
    obtain ⟨c, t, d, rfl, hd⟩ := hs.head
    have hminus : c ≠ ascii '-' := by
      rintro rfl
      simp [show digitValue (ascii '-') = none from rfl] at hd
    have hplus : c ≠ ascii '+' := by
      rintro rfl
      simp [show digitValue (ascii '+') = none from rfl] at hd
    rw [List.nil_append, readSign, if_neg hminus, if_neg hplus]
  | plus => rfl
  | minus => rfl

theorem exists_sign (s : List UInt8) :
    ∃ sign, Sign sign (readSign s).1 ∧ s = sign ++ (readSign s).2 := by
  cases s with
  | nil => exact ⟨[], Sign.none, rfl⟩
  | cons c s =>
    rw [readSign]
    split
    · next hc => exact ⟨[ascii '-'], Sign.minus, by rw [hc]; rfl⟩
    · split
      · next hc => exact ⟨[ascii '+'], Sign.plus, by rw [hc]; rfl⟩
      · exact ⟨[], Sign.none, rfl⟩

/-- A sign or a numeral starts with no blank. -/
theorem dropWhile_append {blanks sign : List UInt8} {negative : Bool} (h : Sign sign negative)
    (hs : CNumeral s n) (hblanks : ∀ c ∈ blanks, isSpace c = true) :
    (blanks ++ (sign ++ s)).dropWhile isSpace = sign ++ s := by
  rw [List.dropWhile_append_of_pos hblanks]
  cases h with
  | none =>
    obtain ⟨c, t, d, rfl, hd⟩ := hs.head
    have hc : ¬ isSpace c = true := by
      intro hspace
      simp [not_digit_of_isSpace hspace] at hd
    rw [List.nil_append, List.dropWhile_cons_of_neg hc]
  | plus => rfl
  | minus => rfl

theorem ofNat_signedValue {negative : Bool} (hn : n ≤ kUllongMax) :
    (if negative then -UInt64.ofNat n else UInt64.ofNat n) =
      UInt64.ofNat (signedValue negative n) := by
  have hlt : n < UInt64.size := Nat.lt_of_le_pred (by decide) hn
  cases negative with
  | false => rfl
  | true =>
    refine UInt64.toNat_inj.mp ?_
    show (-UInt64.ofNat n).toNat = (UInt64.ofNat ((UInt64.size - n) % UInt64.size)).toNat
    rw [UInt64.toNat_neg, UInt64.toNat_ofNat_of_lt' hlt,
      UInt64.toNat_ofNat_of_lt' (Nat.mod_lt _ (by decide))]

theorem signedValue_lt {negative : Bool} (hn : n ≤ kUllongMax) :
    signedValue negative n < UInt64.size := by
  have hlt : n < UInt64.size := Nat.lt_of_le_pred (by decide) hn
  cases negative with
  | false => exact hlt
  | true => exact Nat.mod_lt _ (by decide)

/-- The texts that `strtoull` converts to their end, without a range error. -/
theorem strtoull_iff (htext : text ≠ []) {v : UInt64} :
    strtoull text = { value := v, rest := [], erange := false } ↔
      ∃ lead, Reads lead text v.toNat := by
  constructor
  · intro h
    obtain ⟨sign, hsign, hsplit⟩ := exists_sign (text.dropWhile isSpace)
    unfold strtoull at h
    dsimp only at h
    generalize hr : readSign (text.dropWhile isSpace) = r at h hsign hsplit
    generalize hd : readDigits (detectBase r.2).1 0 (detectBase r.2).2 = read at h
    split at h
    · exact absurd (congrArg Conversion.rest h) htext
    · next hlen =>
      split at h
      · simp at h
      · next hmax =>
        obtain ⟨n, rest⟩ := read
        obtain rfl : rest = [] := congrArg Conversion.rest h
        have hnumeral : CNumeral r.2 n := by
          refine cNumeral_iff.mpr ⟨?_, readDigits_eq_nil_iff.mp hd⟩
          intro hnil
          simp [hnil] at hlen
        have hle : n ≤ kUllongMax := Nat.le_of_not_gt hmax
        refine ⟨text.takeWhile isSpace ++ sign, text.takeWhile isSpace, sign, r.1, r.2, n, rfl, ?_,
          ?_, hsign, hnumeral, hle, ?_⟩
        · rw [List.append_assoc, ← hsplit, List.takeWhile_append_dropWhile]
        · exact fun c hc => List.all_eq_true.mp List.all_takeWhile c hc
        · have hvalue := congrArg Conversion.value h
          dsimp only at hvalue
          rw [← hvalue, ofNat_signedValue hle, UInt64.toNat_ofNat_of_lt' (signedValue_lt hle)]
  · rintro ⟨lead, blanks, sign, negative, s, n, rfl, rfl, hblanks, hsign, hs, hn, hv⟩
    unfold strtoull
    rw [List.append_assoc, dropWhile_append hsign hs hblanks, readSign_append hsign hs]
    obtain ⟨hne, hdigits⟩ := cNumeral_iff.mp hs
    dsimp only
    rw [readDigits_eq_nil_iff.mpr hdigits]
    dsimp only
    have hlen : ([] : List UInt8).length ≠ (detectBase s).2.length :=
      fun he => hne (List.length_eq_zero_iff.mp he.symm)
    rw [if_neg hlen, if_neg (Nat.not_lt.mpr hn), ofNat_signedValue hn, ← hv,
      UInt64.ofNat_toNat]

theorem Reads.lt {lead : List UInt8} {v : Nat} (h : Reads lead text v) : v < UInt64.size := by
  obtain ⟨_, _, _, _, _, -, -, -, -, -, hn, rfl⟩ := h
  exact signedValue_lt hn

theorem Reads.ne_nil {lead : List UInt8} {v : Nat} (h : Reads lead text v) : text ≠ [] := by
  obtain ⟨_, _, _, _, _, -, rfl, -, -, hs, -⟩ := h
  obtain ⟨c, t, d, rfl, -⟩ := hs.head
  simp

/-- A text is converted in one way. -/
theorem Reads.unique {lead lead' : List UInt8} {v v' : Nat} (h : Reads lead text v)
    (h' : Reads lead' text v') : v = v' := by
  have hv : (UInt64.ofNat v).toNat = v := UInt64.toNat_ofNat_of_lt' h.lt
  have hv' : (UInt64.ofNat v').toNat = v' := UInt64.toNat_ofNat_of_lt' h'.lt
  have he := (strtoull_iff h.ne_nil).mpr ⟨lead, by rwa [hv]⟩
  have he' := (strtoull_iff h.ne_nil).mpr ⟨lead', by rwa [hv']⟩
  rw [← hv, ← hv']
  exact congrArg UInt64.toNat (congrArg Conversion.value (he.symm.trans he'))

/-- With nothing in front, the number of the numeral is read. -/
theorem reads_nil_iff {v : Nat} : Reads [] text v ↔ CNumeral text v ∧ v ≤ kUllongMax := by
  constructor
  · rintro ⟨blanks, sign, negative, s, n, hlead, rfl, -, hsign, hs, hn, rfl⟩
    obtain ⟨rfl, rfl⟩ := List.append_eq_nil_iff.mp hlead.symm
    cases hsign with
    | none => exact ⟨hs, hn⟩
  · rintro ⟨hs, hn⟩
    exact ⟨[], [], false, text, v, rfl, rfl, by simp, Sign.none, hs, hn, rfl⟩

/-- What stands in front of a numeral does not start with a digit. -/
theorem Reads.head {lead : List UInt8} {v : Nat} (h : Reads lead text v) (hlead : lead ≠ []) :
    ∃ c t, text = c :: t ∧ digitValue c = none := by
  obtain ⟨blanks, sign, negative, s, n, rfl, rfl, hblanks, hsign, -⟩ := h
  cases blanks with
  | cons c blanks => exact ⟨c, _, rfl, not_digit_of_isSpace (hblanks c List.mem_cons_self)⟩
  | nil =>
    cases hsign with
    | none => exact absurd rfl hlead
    | plus => exact ⟨_, _, rfl, rfl⟩
    | minus => exact ⟨_, _, rfl, rfl⟩

end Libc
