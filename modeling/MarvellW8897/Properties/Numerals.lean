import MarvellW8897.Libc.Numerals
import MarvellW8897.Probe.Options

/-!
# The numerals of the command line

The usage text of the probe promises decimal and `0x`-prefixed hexadecimal numbers. `parseU32`
leaves the base to `strtoull`, which reads a leading zero as octal, and skips blanks and a sign.

* `parseU32_cases` — what `parseU32` accepts, and the value it stores.
* `parseU32_asDocumented_iff` — the texts on which it does what the usage text says.
-/

namespace MarvellW8897

namespace Probe

open Libc

variable {text : CString} {s lead : List UInt8} {n m v v' : Nat}

/-! ## The promise -/

/-- The numerals of the usage text: decimal digits, or `0x` and hexadecimal digits. -/
inductive Documented : List UInt8 → Nat → Prop where
  | decimal {s : List UInt8} {n : Nat} (h : Numeral 10 s n) : Documented s n
  | hex {x : UInt8} {s : List UInt8} {n : Nat} (hx : IsX x) (h : Numeral 16 s n) :
      Documented (ascii '0' :: x :: s) n

/-- A documented numeral of 32 bits gives its number, and any other text is refused. -/
structure AsDocumented (text : CString) : Prop where
  accepts : ∀ n, Documented text.chars n → n ≤ 0xffffffff →
    ∀ out, parseU32 (some text) out = (true, UInt32.ofNat n)
  refuses : (∀ n, Documented text.chars n → 0xffffffff < n) →
    ∀ out, parseU32 (some text) out = (false, out)

theorem Documented.unique (h : Documented s n) (h' : Documented s m) : n = m := by
  cases h with
  | decimal h =>
    cases h' with
    | decimal h' => exact h.unique h'
    | hex hx _ => exact absurd h (not_numeral_of_isX hx (Nat.le_refl 10) _)
  | hex hx h =>
    cases h' with
    | decimal h' => exact absurd h' (not_numeral_of_isX hx (Nat.le_refl 10) _)
    | hex _ h' => exact h.unique h'

/-! ## What the code accepts -/

/-- `parseU32` accepts a text that `strtoull` converts to its end, if the value has 32 bits. -/
theorem parseU32_cases (text : CString) (out : UInt32) :
    (∃ lead v, Reads lead text.chars v ∧ v ≤ 0xffffffff ∧
      parseU32 (some text) out = (true, UInt32.ofNat v)) ∨
    ((∀ lead v, Reads lead text.chars v → 0xffffffff < v) ∧
      parseU32 (some text) out = (false, out)) := by
  unfold parseU32
  dsimp only
  by_cases hnil : text.chars = []
  · refine Or.inr ⟨?_, if_pos hnil⟩
    intro lead v hreads
    exact absurd hnil hreads.ne_nil
  · rw [if_neg hnil]
    have hiff := fun v => strtoull_iff (v := v) hnil
    generalize strtoull text.chars = parsed at hiff
    obtain ⟨value, rest, erange⟩ := parsed
    split
    · next hbad =>
      refine Or.inr ⟨?_, rfl⟩
      intro lead v hreads
      have hv : (UInt64.ofNat v).toNat = v := UInt64.toNat_ofNat_of_lt' hreads.lt
      have he := (hiff (UInt64.ofNat v)).mpr ⟨lead, by rwa [hv]⟩
      obtain ⟨rfl, rfl, rfl⟩ := Conversion.mk.inj he
      have hgt : 0xffffffff < UInt64.ofNat v := by simpa using hbad
      rw [UInt64.lt_iff_toNat_lt, hv] at hgt
      exact hgt
    · next hgood =>
      simp only [Bool.or_eq_true, bne_iff_ne, decide_eq_true_eq, not_or, not_not] at hgood
      obtain ⟨⟨herange, rfl⟩, hle⟩ := hgood
      obtain rfl : erange = false := by simpa using herange
      obtain ⟨lead, hreads⟩ := (hiff value).mp rfl
      refine Or.inl ⟨lead, value.toNat, hreads, ?_, ?_⟩
      · rw [gt_iff_lt, UInt64.lt_iff_toNat_lt] at hle
        exact Nat.le_of_not_lt hle
      · rfl

theorem parseU32_of_reads {lead : List UInt8} (h : Reads lead text.chars v) (hv : v ≤ 0xffffffff)
    (out : UInt32) : parseU32 (some text) out = (true, UInt32.ofNat v) := by
  rcases parseU32_cases text out with ⟨lead', v', h', -, he⟩ | ⟨hno, -⟩
  · rw [h.unique h', he]
  · have := hno lead v h
    omega

/-! ## Where the two agree -/

/--
Nothing stands in front of a numeral of 32 bits, and a decimal numeral with a leading zero has the
same number in base 8 (it is below 8), or is above 32 bits in both bases, if it is octal at all.
-/
structure ReadAsWritten (s : List UInt8) : Prop where
  plain : ∀ lead v, lead ≠ [] → Reads lead s v → 0xffffffff < v
  decimal : ∀ n, s.head? = some (ascii '0') → Numeral 10 s n →
    n < 8 ∨ (0xffffffff < n ∧ ∀ m, Numeral 8 s m → 0xffffffff < m)

theorem Documented.digit (h : Documented s n) : ∃ c t d, s = c :: t ∧ digitValue c = some d := by
  cases h with
  | decimal h =>
    cases s with
    | nil => exact absurd rfl h.1
    | cons c t =>
      obtain ⟨d, hd⟩ := h.head
      exact ⟨c, t, d, rfl, (digit?_eq_some.mp hd).1⟩
  | hex hx h => exact ⟨_, _, 0, rfl, rfl⟩

/-- A numeral that C reads as written is documented, with the number that C gives it. -/
theorem documented_of_cNumeral (h : CNumeral s n) :
    Documented s n ∨ (s.head? = some (ascii '0') ∧ Numeral 8 s n) := by
  cases h with
  | decimal h _ => exact Or.inl (Documented.decimal h)
  | octal h hz => exact Or.inr ⟨hz, h⟩
  | hex hx h => exact Or.inl (Documented.hex hx h)

/-- A documented numeral is one of C, with the same number unless a leading zero makes it octal. -/
theorem Documented.cNumeral (h : Documented s n) :
    CNumeral s n ∨ (s.head? = some (ascii '0') ∧ Numeral 10 s n) := by
  cases h with
  | decimal h =>
    by_cases hz : s.head? = some (ascii '0')
    · exact Or.inr ⟨hz, h⟩
    · exact Or.inl (CNumeral.decimal h hz)
  | hex hx h => exact Or.inl (CNumeral.hex hx h)

theorem reads_of_cNumeral (h : CNumeral s n) (hn : n ≤ 0xffffffff) : Reads [] s n :=
  reads_nil_iff.mpr ⟨h, Nat.le_trans hn (by decide)⟩

theorem asDocumented_of_readAsWritten (h : ReadAsWritten text.chars) : AsDocumented text where
  accepts := by
    intro n hdoc hn out
    rcases hdoc.cNumeral with hc | ⟨hz, hten⟩
    · exact parseU32_of_reads (reads_of_cNumeral hc hn) hn out
    · rcases h.decimal n hz hten with hlt | ⟨hgt, -⟩
      · have hoctal := CNumeral.octal ⟨hten.1, octal_of_lt hten.2 hlt⟩ hz
        exact parseU32_of_reads (reads_of_cNumeral hoctal hn) hn out
      · omega
  refuses := by
    intro hdoc out
    rcases parseU32_cases text out with ⟨lead, v, hreads, hv, -⟩ | ⟨-, he⟩
    · by_cases hlead : lead = []
      · rw [hlead] at hreads
        rcases documented_of_cNumeral (reads_nil_iff.mp hreads).1 with hd | ⟨hz, height⟩
        · have := hdoc v hd
          omega
        · -- an octal numeral is a decimal one too, so the condition applies to it
          obtain ⟨n, hten, hle, -⟩ := octal_le_decimal height.2
          have hgt := hdoc n (Documented.decimal ⟨height.1, hten⟩)
          rcases h.decimal n hz ⟨height.1, hten⟩ with hlt | ⟨-, hoctal⟩
          · omega
          · have := hoctal v height
            omega
      · have := h.plain lead v hlead hreads
        omega
    · exact he

theorem readAsWritten_of_asDocumented (h : AsDocumented text) : ReadAsWritten text.chars where
  plain := by
    intro lead v hlead hreads
    refine Nat.lt_of_not_le ?_
    intro hv
    obtain ⟨c, t, htext, hc⟩ := hreads.head hlead
    have hno : ∀ n, ¬ Documented text.chars n := by
      intro n hdoc
      obtain ⟨c', t', d, htext', hd⟩ := hdoc.digit
      obtain ⟨rfl, -⟩ := List.cons.inj (htext.symm.trans htext')
      simp [hc] at hd
    have hrefused := h.refuses (fun n hdoc => absurd hdoc (hno n)) 0
    rw [parseU32_of_reads hreads hv] at hrefused
    simp at hrefused
  decimal := by
    intro n hz hten
    have hoctal : ∀ {m}, Numeral 8 text.chars m → m ≤ 0xffffffff →
        parseU32 (some text) 0 = (true, UInt32.ofNat m) := by
      intro m height hm
      exact parseU32_of_reads (reads_of_cNumeral (CNumeral.octal height hz) hm) hm 0
    by_cases hn : n ≤ 0xffffffff
    · -- it is accepted with its decimal value, so C reads it with that value
      left
      have haccepted := h.accepts n (Documented.decimal hten) hn 0
      rcases parseU32_cases text 0 with ⟨lead, v, hreads, hv, he⟩ | ⟨-, he⟩
      · have hnv : n = v := by
          have hword := congrArg UInt32.toNat (congrArg Prod.snd (haccepted.symm.trans he))
          dsimp only at hword
          rwa [UInt32.toNat_ofNat_of_lt' (show n < UInt32.size by simp [UInt32.size]; omega),
            UInt32.toNat_ofNat_of_lt' (show v < UInt32.size by simp [UInt32.size]; omega)] at hword
        obtain rfl := hnv
        by_cases hlead : lead = []
        · rw [hlead] at hreads
          have height := (reads_nil_iff.mp hreads).1.octal_of_decimal hz hten
          obtain ⟨n', hten', -, hlt⟩ := octal_le_decimal height.2
          have he := hten.unique ⟨hten.1, hten'⟩
          exact lt_of_eq_of_lt he (hlt he)
        · obtain ⟨c, t, htext, hc⟩ := hreads.head hlead
          obtain ⟨c', t', d, htext', hd⟩ := (Documented.decimal hten).digit
          obtain ⟨rfl, -⟩ := List.cons.inj (htext.symm.trans htext')
          simp [hc] at hd
      · rw [haccepted] at he
        simp at he
    · refine Or.inr ⟨Nat.lt_of_not_le hn, ?_⟩
      intro m height
      refine Nat.lt_of_not_le ?_
      intro hm
      have hrefused := h.refuses (fun n' hdoc => by
        rw [hdoc.unique (Documented.decimal hten)]
        omega) 0
      rw [hoctal height hm] at hrefused
      simp at hrefused

/--
`parseU32` does what the usage text says of a text exactly if C reads the text as it is written.
-/
theorem parseU32_asDocumented_iff (text : CString) :
    AsDocumented text ↔ ReadAsWritten text.chars :=
  ⟨readAsWritten_of_asDocumented, asDocumented_of_readAsWritten⟩

/-- `010` is documented as the number ten, and read as eight. -/
theorem parseU32_not_asDocumented :
    parseU32 (some ⟨[ascii '0', ascii '1', ascii '0'], by decide⟩) 0 = (true, 8) ∧
      ¬ ∀ text, AsDocumented text := by
  have hread : parseU32 (some ⟨[ascii '0', ascii '1', ascii '0'], by decide⟩) 0 = (true, 8) := by
    decide
  refine ⟨hread, ?_⟩
  intro h
  have hten := (h ⟨[ascii '0', ascii '1', ascii '0'], by decide⟩).accepts 10
    (Documented.decimal ⟨by decide, by decide⟩) (by decide) 0
  rw [hread] at hten
  simp at hten

end Probe

end MarvellW8897
