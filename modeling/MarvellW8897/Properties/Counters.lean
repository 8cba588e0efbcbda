import MarvellW8897.Scripts.Counters

/-!
# What the two counters count

The counter of the deploy script looks for its needles in any letter case, and its shortest one is
the bare driver name. The counter of the trace script looks for the three identities as they are
written in its `MARVELL_ID_REGEX`.

* `isMarvellEntry_of_isOcEntry` — the deploy script counts every entry that the trace script counts.
* `counters_agree_iff` — the two numbers, and when they are the same.
-/

namespace MarvellW8897

namespace Scripts

open Plist

variable {py : PyText} {entries : List (String × Plist)} {pl : Plist} {α : Type} {l : List α}
  {p q : α → Bool} {accepts accepts' : List (String × Plist) → Bool}

/-! ## Needles -/

/-- A needle of ASCII characters is found in the lowered text if it was there in upper case. -/
theorem isSubstring_lower {needle lowered text : String}
    (hascii : ∀ c ∈ needle.toList, c.toNat < 128)
    (hlowered : needle.toList.map Char.toLower = lowered.toList)
    (h : isSubstring needle text = true) : isSubstring lowered (py.lower text) = true := by
  obtain ⟨before, after, htext⟩ := of_decide_eq_true h
  have hstretch : text = String.ofList before ++ needle ++ String.ofList after := by
    apply String.toList_injective
    simpa using htext.symm
  have hlower := py.lower_ascii (String.ofList before) needle (String.ofList after) hascii
  rw [← hstretch, hlowered] at hlower
  exact decide_eq_true hlower

/-- A text with a needle in it has every part of the needle in it. -/
theorem isSubstring_trans {short long text : String} (h : isSubstring short long = true)
    (h' : isSubstring long text = true) : isSubstring short text = true :=
  decide_eq_true ((of_decide_eq_true h).trans (of_decide_eq_true h'))

/-- The deploy script counts every entry that the trace script counts. -/
theorem isMarvellEntry_of_isOcEntry (h : isOcEntry py entries = true) :
    isMarvellEntry py entries = true := by
  simp only [isOcEntry, Bool.or_eq_true] at h
  simp only [isMarvellEntry, Bool.or_eq_true]
  rcases h with (hkext | hdriver) | hbare
  · have hlower : isSubstring "marvellw8897kext" (py.lower (joined py entries)) = true :=
      isSubstring_lower (by simp) (by decide +kernel) hkext
    exact Or.inl (Or.inl (isSubstring_trans (by decide +kernel) hlower))
  · exact Or.inl (Or.inr (isSubstring_lower (by simp) (by decide +kernel) hdriver))
  · exact Or.inr (isSubstring_lower (by simp) (by decide +kernel) hbare)

/-! ## Counting -/

/-- A stricter test counts as many only if it accepts what the other accepts. -/
theorem countP_eq_countP_iff (hpq : ∀ x ∈ l, p x = true → q x = true) :
    l.countP p = l.countP q ↔ ∀ x ∈ l, q x = true → p x = true := by
  constructor
  · intro heq
    induction l with
    | nil => simp
    | cons x l ih =>
      rw [List.forall_mem_cons] at hpq
      have hle : l.countP p ≤ l.countP q := List.countP_mono_left hpq.2
      rw [List.countP_cons, List.countP_cons] at heq
      by_cases hp : p x = true
      · rw [if_pos hp, if_pos (hpq.1 hp)] at heq
        exact List.forall_mem_cons.mpr ⟨fun _ => hp, ih hpq.2 (by omega)⟩
      · have hq : ¬ q x = true := by
          intro hq
          rw [if_neg hp, if_pos hq] at heq
          omega
        rw [if_neg hp, if_neg hq] at heq
        exact List.forall_mem_cons.mpr ⟨fun h => absurd h hq, ih hpq.2 (by omega)⟩
  · intro hqp
    exact List.countP_congr fun x hx => ⟨hpq x hx, hqp x hx⟩

/-- An element that the loop of a counter goes through. -/
def Listed (pl element : Plist) : Prop :=
  ∃ adds elements, kernelAdd pl = .ok adds ∧ adds.elements = .ok elements ∧ element ∈ elements

/-- Only the entries that are dictionaries tell one test from another. -/
theorem counted_imp (l : List Plist) : (∀ e ∈ l, counted accepts e = true →
    counted accepts' e = true) ↔ ∀ entries, Plist.dict entries ∈ l → accepts entries = true →
      accepts' entries = true := by
  constructor
  · intro h entries hentries
    exact h (.dict entries) hentries
  · intro h e he
    cases e with
    | dict entries => exact h entries he
    | _ => exact id

/-- Whether a loop raises an exception, and what it goes through, does not depend on its test. -/
theorem countEntries_cases (pl : Plist) :
    (∃ e, ∀ accepts, countEntries accepts pl = .error e) ∨
    ∃ elements : List Plist, (∀ element, Listed pl element ↔ element ∈ elements) ∧
      ∀ accepts, countEntries accepts pl = .ok (elements.countP (counted accepts)) := by
  cases hadds : kernelAdd pl with
  | error e =>
    refine Or.inl ⟨e, fun accepts => ?_⟩
    rw [countEntries, hadds]
    rfl
  | ok adds =>
    cases helements : adds.elements with
    | error e =>
      refine Or.inl ⟨e, fun accepts => ?_⟩
      rw [countEntries, hadds, ok_bind, helements]
      rfl
    | ok elements =>
      refine Or.inr ⟨elements, ?_, ?_⟩
      · intro element
        simp [Listed, hadds, helements]
      · intro accepts
        rw [countEntries, hadds, ok_bind, helements]
        rfl

/--
The two counters raise the same exception, or the trace script counts at most what the deploy script
counts. The numbers are the same if and only if no listed entry has the driver's name in another
spelling than those of the trace script.
-/
theorem counters_agree_iff (py : PyText) (pl : Plist) :
    (∃ e, countMarvellKernelAddEntries py pl = .error e ∧ countOcEntries py pl = .error e) ∨
    ∃ deployed traced, countMarvellKernelAddEntries py pl = .ok deployed ∧
      countOcEntries py pl = .ok traced ∧ traced ≤ deployed ∧
      (traced = deployed ↔ ∀ entries, Listed pl (.dict entries) →
        isMarvellEntry py entries = true → isOcEntry py entries = true) := by
  rcases countEntries_cases pl with ⟨e, herror⟩ | ⟨elements, hlisted, hok⟩
  · exact Or.inl ⟨e, herror _, herror _⟩
  · have hcounted : ∀ e ∈ elements, counted (isOcEntry py) e = true →
        counted (isMarvellEntry py) e = true :=
      (counted_imp elements).mpr fun entries _ => isMarvellEntry_of_isOcEntry
    refine Or.inr ⟨_, _, hok _, hok _, List.countP_mono_left hcounted, ?_⟩
    rw [countP_eq_countP_iff hcounted, counted_imp]
    simp only [hlisted]

/-- `str` of strings, and `lower` of ASCII texts. -/
def asciiText : PyText where
  str
    | .string s => s
    | _ => ""
  lower := fun s => String.ofList (s.toList.map Char.toLower)
  str_string := fun _ => rfl
  lower_ascii := by
    intro before text after _
    refine ⟨before.toList.map Char.toLower, after.toList.map Char.toLower, ?_⟩
    simp

/-- A config that lists the driver under a bundle name without the suffix of this project. -/
def renamedConfig : Plist :=
  .dict [("Kernel", .dict [("Add", .array [.dict [("BundlePath", .string "MarvellW8897.kext"),
    ("Enabled", .boolean true), ("ExecutablePath", .string "Contents/MacOS/MarvellW8897"),
    ("PlistPath", .string "Contents/Info.plist")]])])]

theorem counters_disagree : countMarvellKernelAddEntries asciiText renamedConfig = .ok 1 ∧
    countOcEntries asciiText renamedConfig = .ok 0 := by
  decide +kernel

end Scripts

end MarvellW8897
