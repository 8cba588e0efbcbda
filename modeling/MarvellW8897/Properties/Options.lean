import MarvellW8897.Probe.Options
import MarvellW8897.Spec.Window

/-!
# Command lines

* `parseArguments_done` — after a request for a register, any further argument ends the parse.
* `parseOptions_accepted` — what is accepted is no argument at all, or one request.
* `parseFrom_eq` — the loop over the indices of `argv` is the loop over the arguments.
* `parseFrom_grammar` — every command line, and what it ends in.
-/

namespace MarvellW8897

namespace Probe

variable {options options' : ProbeOptions} {args argv : List CString}

/-- The arguments are `--read-bar-reg` and numerals for `bar` and for an aligned `offset`. -/
def Requests (argv : List CString) (bar offset : UInt32) : Prop :=
  ∃ barText offsetText, argv.drop 1 = [readBarRegOption, barText, offsetText] ∧
    parseU32 (some barText) 0 = (true, bar) ∧ parseU32 (some offsetText) 0 = (true, offset) ∧
    4 ∣ offset.toNat

/-- With a request behind it, the loop accepts the end of the arguments only. -/
theorem parseArguments_done (hread : options.readBarReg = true)
    (h : parseArguments options args = .accepted options') : args = [] ∧ options' = options := by
  cases args with
  | nil => exact ⟨rfl, (Parsed.accepted.inj h).symm⟩
  | cons arg rest =>
    unfold parseArguments at h
    split at h
    · simp at h
    · split at h
      · rw [if_pos (by simp [hread])] at h
        simp at h
      · simp at h

/-- The alignment test of the offset. -/
theorem aligned_of_and {offset : UInt32} (h : ¬ ((offset &&& 0x3) != 0) = true) :
    4 ∣ offset.toNat := by
  have hz : offset &&& 0x3 = 0 := by simpa using h
  exact (PciBars.and_three_eq_zero offset).mp hz

/-- What the loop accepts: nothing, or one aligned request. -/
theorem parseArguments_accepted (h : parseArguments options args = .accepted options') :
    (args = [] ∧ options' = options) ∨
    ∃ barText offsetText bar offset, args = [readBarRegOption, barText, offsetText] ∧
      parseU32 (some barText) 0 = (true, bar) ∧ parseU32 (some offsetText) 0 = (true, offset) ∧
      4 ∣ offset.toNat ∧
      options' = { options with readBarReg := true, readBar := bar, readOffset := offset } := by
  cases args with
  | nil => exact Or.inl ⟨rfl, (Parsed.accepted.inj h).symm⟩
  | cons arg rest =>
    right
    unfold parseArguments at h
    split at h
    · simp at h
    · split at h
      · next hopt =>
        split at h
        · simp at h
        · split at h
          · next barText offsetText rest' _ =>
            dsimp only at h
            split at h; · simp at h
            next hok =>
            split at h; · simp at h
            next halign =>
            -- a second request would be refused, so nothing follows
            obtain ⟨rfl, rfl⟩ := parseArguments_done rfl h
            simp only [Bool.or_eq_true, Bool.not_eq_true', not_or, Bool.not_eq_false] at hok
            obtain ⟨hbar, hoffset⟩ := hok
            refine ⟨barText, offsetText, _, _, by rw [hopt], Prod.ext hbar rfl,
              Prod.ext hoffset rfl, aligned_of_and halign, rfl⟩
          · simp at h
      · simp at h

/-- What `parseOptions` accepts: no argument, or a request for a register. -/
theorem parseOptions_accepted (h : parseOptions argv = .accepted options) :
    options = {} ∨ ∃ bar offset, Requests argv bar offset ∧ options = ⟨true, bar, offset⟩ := by
  rcases parseArguments_accepted h with
    ⟨-, rfl⟩ | ⟨barText, offsetText, bar, offset, hargs, hbar, hoffset, halign, rfl⟩
  · exact Or.inl rfl
  · exact Or.inr ⟨bar, offset, ⟨barText, offsetText, hargs, hbar, hoffset, halign⟩, rfl⟩

/-- A request is taken in, and the loop goes on behind it. -/
theorem parseArguments_request {barText offsetText : CString} {bar offset : UInt32}
    {rest : List CString} (hread : options.readBarReg = false)
    (hbar : parseU32 (some barText) 0 = (true, bar))
    (hoffset : parseU32 (some offsetText) 0 = (true, offset)) (halign : 4 ∣ offset.toNat) :
    parseArguments options (readBarRegOption :: barText :: offsetText :: rest) =
      parseArguments { options with readBarReg := true, readBar := bar, readOffset := offset }
        rest := by
  have hand : ¬ ((offset &&& 0x3) != 0) = true := by
    have hz : offset &&& 0x3 = 0 := (PciBars.and_three_eq_zero offset).mpr halign
    rw [hz]
    decide
  rw [parseArguments, if_neg (by decide), if_pos rfl, if_neg (by simp [hread])]
  dsimp only
  rw [hbar, hoffset, if_neg (by simp), if_neg hand]

/-- A request is accepted, with its two numbers. -/
theorem Requests.accepted {bar offset : UInt32} (h : Requests argv bar offset) :
    parseOptions argv = .accepted ⟨true, bar, offset⟩ := by
  obtain ⟨barText, offsetText, hargs, hbar, hoffset, halign⟩ := h
  unfold parseOptions
  rw [hargs, parseArguments_request rfl hbar hoffset halign]
  rfl

/-- The arguments ask for at most one register. -/
theorem Requests.unique {bar bar' offset offset' : UInt32} (h : Requests argv bar offset)
    (h' : Requests argv bar' offset') : bar = bar' ∧ offset = offset' := by
  have he := Parsed.accepted.inj (h.accepted.symm.trans h'.accepted)
  exact ⟨congrArg ProbeOptions.readBar he, congrArg ProbeOptions.readOffset he⟩

/-! ## Every command line -/

/-- `-h` or `--help`. -/
def IsHelp (arg : CString) : Prop := arg = shortHelp ∨ arg = longHelp

theorem parseArguments_help {arg : CString} {rest : List CString} (h : IsHelp arg) :
    parseArguments options (arg :: rest) = .help := by
  unfold parseArguments
  exact if_pos h

/-- Behind a request, help is given only if it is asked for at once. -/
theorem isHelp_of_done (hread : options.readBarReg = true)
    (h : parseArguments options args = .help) : ∃ arg rest, args = arg :: rest ∧ IsHelp arg := by
  cases args with
  | nil => simp [parseArguments] at h
  | cons arg rest =>
    unfold parseArguments at h
    split at h
    · next hhelp => exact ⟨arg, rest, rfl, hhelp⟩
    · split at h
      · rw [if_pos (by simp [hread])] at h
        simp at h
      · simp at h

/-- Help is asked for by the first argument, or right behind a request. -/
theorem isHelp_of_parseArguments (h : parseArguments options args = .help) :
    (∃ arg rest, args = arg :: rest ∧ IsHelp arg) ∨
    ∃ barText offsetText bar offset arg rest,
      args = readBarRegOption :: barText :: offsetText :: arg :: rest ∧
      parseU32 (some barText) 0 = (true, bar) ∧ parseU32 (some offsetText) 0 = (true, offset) ∧
      4 ∣ offset.toNat ∧ IsHelp arg := by
  cases args with
  | nil => simp [parseArguments] at h
  | cons arg rest =>
    unfold parseArguments at h
    split at h
    · next hhelp => exact Or.inl ⟨arg, rest, rfl, hhelp⟩
    · split at h
      · next hopt =>
        split at h
        · simp at h
        · split at h
          · next barText offsetText rest' _ =>
            dsimp only at h
            split at h; · simp at h
            next hok =>
            split at h; · simp at h
            next halign =>
            obtain ⟨arg', rest'', rfl, hhelp⟩ := isHelp_of_done rfl h
            simp only [Bool.or_eq_true, Bool.not_eq_true', not_or, Bool.not_eq_false] at hok
            exact Or.inr ⟨barText, offsetText, _, _, arg', rest'', by rw [hopt], Prod.ext hok.1 rfl,
              Prod.ext hok.2 rfl, aligned_of_and halign, hhelp⟩
          · simp at h
      · simp at h

/-- The loop stays inside the arguments. -/
theorem parseArguments_ne_pastEnd : parseArguments options args ≠ .pastEnd := by
  fun_induction parseArguments options args with
  | case6 options barText offsetText rest barOk bar hbar offsetOk offset hoffset hok halign hno
      hroom ih => exact ih
  | case7 options rest hroom hshort hno =>
    -- there is room for two arguments, so they are there
    match rest, hroom with
    | barText :: offsetText :: rest, _ => exact absurd rfl (hshort barText offsetText rest)
    | [], hroom | [_], hroom => simp at hroom
  | _ => simp

theorem drop_eq_cons {i : Nat} {arg : CString} (h : argv[i]? = some arg) :
    argv.drop i = arg :: argv.drop (i + 1) := by
  obtain ⟨hlt, rfl⟩ := List.getElem?_eq_some_iff.mp h
  exact List.drop_eq_getElem_cons hlt

/-- `(i + 2) >= argc` says that fewer than two arguments follow. -/
theorem length_drop_lt_two (argv : List CString) (i : Nat) :
    decide ((argv.drop (i + 1)).length < 2) = decide (i + 2 ≥ argv.length) := by
  rw [decide_eq_decide, List.length_drop]
  omega

/-- The loop over the indices of `argv` is the loop over the arguments from there on. -/
theorem parseFrom_eq (argv : List CString) (i : Nat) (options : ProbeOptions) :
    parseFrom argv i options = parseArguments options (argv.drop i) := by
  fun_induction parseFrom argv i options with
  | case1 i options hlt hnone =>
    rw [List.getElem?_eq_none_iff] at hnone
    omega
  | case2 i options hlt arg harg hhelp =>
    rw [drop_eq_cons harg]
    exact (parseArguments_help hhelp).symm
  | case3 i options hlt hshort harg hno =>
    rw [drop_eq_cons harg]
    unfold parseArguments
    rw [if_neg hno, if_pos rfl, if_pos (by rwa [length_drop_lt_two])]
  | case4 i options hlt hroom barText offsetText hoffsetText hbarText barOk bar hbar offsetOk offset
      hoffset hbad harg hno =>
    rw [drop_eq_cons harg, drop_eq_cons hbarText, drop_eq_cons hoffsetText]
    unfold parseArguments
    rw [if_neg hno, if_pos rfl, if_neg (by simp_all)]
    dsimp only
    rw [hbar, hoffset, if_pos hbad]
  | case5 i options hlt hroom barText offsetText hoffsetText hbarText barOk bar hbar offsetOk offset
      hoffset hok halign harg hno =>
    rw [drop_eq_cons harg, drop_eq_cons hbarText, drop_eq_cons hoffsetText]
    unfold parseArguments
    rw [if_neg hno, if_pos rfl, if_neg (by simp_all)]
    dsimp only
    rw [hbar, hoffset, if_neg hok, if_pos halign]
  | case6 i options hlt hroom barText offsetText hoffsetText hbarText barOk bar hbar offsetOk offset
      hoffset hok halign harg hno ih =>
    rw [ih, drop_eq_cons harg, drop_eq_cons hbarText, drop_eq_cons hoffsetText]
    conv_rhs => unfold parseArguments
    rw [if_neg hno, if_pos rfl, if_neg (by simp_all)]
    dsimp only
    rw [hbar, hoffset, if_neg hok, if_neg halign]
  | case7 i options hlt hroom hshort harg hno =>
    simp only [Bool.or_eq_true, decide_eq_true_eq, not_or, Nat.not_le] at hroom
    exact absurd (List.getElem?_eq_getElem (Nat.lt_of_succ_lt hroom.2))
      fun h => hshort _ _ h (List.getElem?_eq_getElem hroom.2)
  | case8 i options hlt arg harg hhelp hno =>
    rw [drop_eq_cons harg]
    unfold parseArguments
    rw [if_neg hhelp, if_neg hno]
  | case9 i options hend =>
    rw [List.drop_eq_nil_of_le (Nat.le_of_not_lt hend), parseArguments]

/--
The command lines of the probe, for any arguments `args` behind its name. What is accepted is no
argument or one request; help is given for a first argument that asks for it, or one right behind a
request; everything else is rejected. No argument past the end is read.
-/
theorem parseFrom_grammar (name : CString) (args : List CString) :
    let result := parseFrom (name :: args) 1 {}
    (∀ options, result = .accepted options ↔ (args = [] ∧ options = {}) ∨
      ∃ bar offset, Requests (name :: args) bar offset ∧ options = ⟨true, bar, offset⟩) ∧
    (result = .help ↔ (∃ arg rest, args = arg :: rest ∧ IsHelp arg) ∨
      ∃ request arg rest bar offset, args = request ++ arg :: rest ∧
        Requests (name :: request) bar offset ∧ IsHelp arg) ∧
    ((∃ options, result = .accepted options) ∨ result = .help ∨
      ∃ refused, result = .rejected refused) ∧
    result ≠ .pastEnd := by
  intro result
  have hresult : result = parseOptions (name :: args) := parseFrom_eq (name :: args) 1 {}
  rw [hresult]
  refine ⟨?_, ?_, ?_, parseArguments_ne_pastEnd⟩
  · intro options
    constructor
    · intro h
      rcases parseArguments_accepted h with
        ⟨hargs, rfl⟩ | ⟨barText, offsetText, bar, offset, hargs, hbar, hoffset, halign, rfl⟩
      · exact Or.inl ⟨hargs, rfl⟩
      · exact Or.inr ⟨bar, offset, ⟨barText, offsetText, hargs, hbar, hoffset, halign⟩, rfl⟩
    · rintro (⟨rfl, rfl⟩ | ⟨bar, offset, hrequest, rfl⟩)
      · rfl
      · exact hrequest.accepted
  · constructor
    · intro h
      rcases isHelp_of_parseArguments h with
        ⟨arg, rest, hargs, hhelp⟩ | ⟨barText, offsetText, bar, offset, arg, rest, hargs, hbar,
          hoffset, halign, hhelp⟩
      · exact Or.inl ⟨arg, rest, hargs, hhelp⟩
      · exact Or.inr ⟨[readBarRegOption, barText, offsetText], arg, rest, bar, offset, hargs,
          ⟨barText, offsetText, rfl, hbar, hoffset, halign⟩, hhelp⟩
    · rintro (⟨arg, rest, rfl, hhelp⟩ | ⟨request, arg, rest, bar, offset, rfl, hrequest, hhelp⟩)
      · exact parseArguments_help hhelp
      · obtain ⟨barText, offsetText, hargs, hbar, hoffset, halign⟩ := hrequest
        obtain rfl : request = [readBarRegOption, barText, offsetText] := hargs
        exact (parseArguments_request rfl hbar hoffset halign).trans (parseArguments_help hhelp)
  · cases hcase : parseOptions (name :: args) with
    | accepted options => exact Or.inl ⟨options, rfl⟩
    | help => exact Or.inr (Or.inl rfl)
    | rejected refused => exact Or.inr (Or.inr ⟨refused, rfl⟩)
    | pastEnd => exact absurd hcase parseArguments_ne_pastEnd

end Probe

end MarvellW8897
