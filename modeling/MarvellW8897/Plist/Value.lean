import MarvellW8897.Plist.Dictionary
import Mathlib.Data.List.Infix

/-!
# Property lists in Python

The values that `plistlib` loads, and the operations of Python on them. A reference into a value
through which the value is changed is a function from the old part to the new one here.

* `get`, `elements`, `contains` — `.get`, `for` and `in`, with the exceptions they raise.
* `inDefault` — `setdefault`, and a change of what it returns.
* `atPath`, `Frame` — the parts of a value, and a change that keeps all but some of them.
-/

/-- A value of a property list. Numbers with a fraction and dates are kept as their text. -/
inductive Plist where
  | string (s : String)
  | integer (n : Int)
  | real (text : String)
  | boolean (b : Bool)
  | date (text : String)
  | data (bytes : List UInt8)
  | uid (n : Nat)
  | array (elements : List Plist)
  | dict (entries : List (String × Plist))

namespace Plist

open Dictionary

/-- The exceptions of a value of the wrong type. -/
inductive PyError where
  | attributeError
  | typeError
deriving DecidableEq, Repr

/-- A step that raises no exception. -/
theorem ok_bind {α β : Type} (a : α) (f : α → Except PyError β) : (Except.ok a >>= f) = f a := rfl

/-- Two steps raise no exception if neither of them does. -/
theorem bind_eq_ok {α β : Type} {x : Except PyError α} {f : α → Except PyError β} {b : β} :
    (x >>= f) = .ok b ↔ ∃ a, x = .ok a ∧ f a = .ok b := by
  cases x with
  | error e => simp [bind, Except.bind]
  | ok a => simp [bind, Except.bind]

/-! ## Reading -/

/-- The truth of a value: `value or default` is `value` if it is true. -/
def truthy : Plist → Bool
  | string s => s != ""
  | integer n => n != 0
  | real text => text != "0.0" && text != "-0.0"
  | boolean b => b
  | date _ | uid _ => true
  | data bytes => !bytes.isEmpty
  | array elements => !elements.isEmpty
  | dict entries => !entries.isEmpty

/-- `value or default`, where `None` is false too. -/
def orDefault (value : Option Plist) (default : Plist) : Plist :=
  match value with
  | some value => if value.truthy then value else default
  | none => default

theorem orDefault_of_truthy {value default : Plist} (h : value.truthy = true) :
    orDefault (some value) default = value := if_pos h

theorem truthy_of_lookup {entries : List (String × Plist)} {key : String} {item : Plist}
    (h : entries.lookup key = some item) : (dict entries).truthy = true := by
  cases entries with
  | nil => cases h
  | cons entry entries => rfl

/-- `value.get(key)`: only a dictionary has this method. -/
def get (value : Plist) (key : String) : Except PyError (Option Plist) :=
  match value with
  | dict entries => .ok (entries.lookup key)
  | _ => .error .attributeError

/-- What `for element in value` goes through. -/
def elements (value : Plist) : Except PyError (List Plist) :=
  match value with
  | array elements => .ok elements
  | dict entries => .ok (entries.map fun entry => string entry.1)
  | string s => .ok (s.toList.map fun c => string (String.singleton c))
  | data bytes => .ok (bytes.map fun byte => integer byte.toNat)
  | _ => .error .typeError

/-- `needle in text`, for strings. -/
def isSubstring (needle text : String) : Bool := decide (needle.toList <:+: text.toList)

/-- `key in value`: an element, a key, or a substring. -/
def contains (value : Plist) (key : String) : Except PyError Bool :=
  match value with
  | array elements => .ok (elements.any fun element =>
      match element with
      | string s => s == key
      | _ => false)
  | dict entries => .ok (entries.lookup key).isSome
  | string s => .ok (isSubstring key s)
  | _ => .error .typeError

/-! ## Changing -/

/-- `value[key] = item`, for a key that is a string. -/
def setItem (key : String) (item : Plist) : Plist → Except PyError Plist
  | dict entries => .ok (dict (set key item entries))
  | _ => .error .typeError

/-- `value.append(item)`. -/
def append (item : Plist) : Plist → Except PyError Plist
  | array elements => .ok (array (elements ++ [item]))
  | _ => .error .attributeError

/-- `value.setdefault(key, default)`, and the change `f` of the value that it returns. -/
def inDefault (key : String) (default : Plist) (f : Plist → Except PyError Plist) :
    Plist → Except PyError Plist
  | dict entries => do
    let item ← f ((entries.lookup key).getD default)
    return dict (set key item entries)
  | _ => .error .attributeError

variable {key key' : String} {default item value value' value'' : Plist}
  {f : Plist → Except PyError Plist}

theorem inDefault_eq_ok : inDefault key default f value = .ok value' ↔
    ∃ entries item, value = dict entries ∧ f ((entries.lookup key).getD default) = .ok item ∧
      value' = dict (set key item entries) := by
  cases value with
  | dict entries =>
    cases h : f ((entries.lookup key).getD default) with
    | error e => simp [inDefault, h, bind, Except.bind]
    | ok item => simp [inDefault, h, bind, Except.bind, pure, Except.pure, eq_comm]
  | string _ | integer _ | real _ | boolean _ | date _ | data _ | uid _ | array _ =>
    simp [inDefault]

theorem setItem_eq_ok : setItem key item value = .ok value' ↔
    ∃ entries, value = dict entries ∧ value' = dict (set key item entries) := by
  cases value with
  | dict entries => simp [setItem, eq_comm]
  | string _ | integer _ | real _ | boolean _ | date _ | data _ | uid _ | array _ =>
    simp [setItem]

/-! ## Parts -/

/-- The part of a value behind the keys of a path. -/
def atPath : List String → Plist → Option Plist
  | [], value => some value
  | key :: path, dict entries => (entries.lookup key).bind (atPath path)
  | _ :: _, _ => none

theorem atPath_singleton {entries : List (String × Plist)} :
    atPath [key] (dict entries) = entries.lookup key := by
  simp [atPath]

/-- What has a part is a dictionary. -/
theorem atPath_cons_eq_some {path : List String} : atPath (key :: path) value = some item ↔
    ∃ entries part, value = dict entries ∧ entries.lookup key = some part ∧
      atPath path part = some item := by
  cases value with
  | dict entries => simp [atPath, Option.bind_eq_some_iff]
  | string _ | integer _ | real _ | boolean _ | date _ | data _ | uid _ | array _ => simp [atPath]

/-- Neither path leads to a part of what the other leads to. -/
def Apart (path path' : List String) : Prop := ¬ path <+: path' ∧ ¬ path' <+: path

/--
From `value` to `value'`, only the parts behind the paths `touched` change. A dictionary on the way
to them may get further keys, behind those that it had.
-/
structure Frame (touched : List (List String)) (value value' : Plist) : Prop where
  same : ∀ path, (∀ t ∈ touched, Apart t path) → atPath path value' = atPath path value
  keys : ∀ path entries, atPath path value = some (dict entries) →
    (∀ t ∈ touched, ¬ t <+: path) → ∃ entries', atPath path value' = some (dict entries') ∧
      entries.map Prod.fst <+: entries'.map Prod.fst

/-- Everything may change. -/
theorem Frame.whole (value value' : Plist) : Frame [[]] value value' where
  same := fun _ h => absurd List.nil_prefix (h [] List.mem_cons_self).1
  keys := fun _ _ _ h => absurd List.nil_prefix (h [] List.mem_cons_self)

theorem Frame.trans {touched touched' : List (List String)} (h : Frame touched value value')
    (h' : Frame touched' value' value'') : Frame (touched ++ touched') value value'' where
  same := by
    intro path hpath
    rw [h'.same path fun t ht => hpath t (List.mem_append_right _ ht)]
    exact h.same path fun t ht => hpath t (List.mem_append_left _ ht)
  keys := by
    intro path entries hat hpath
    obtain ⟨entries', hat', hkeys⟩ :=
      h.keys path entries hat fun t ht => hpath t (List.mem_append_left _ ht)
    obtain ⟨entries'', hat'', hkeys'⟩ :=
      h'.keys path entries' hat' fun t ht => hpath t (List.mem_append_right _ ht)
    exact ⟨entries'', hat'', hkeys.trans hkeys'⟩

/-- An empty container, as `setdefault` puts one in. -/
def IsEmpty (value : Plist) : Prop := value = dict [] ∨ value = array []

theorem IsEmpty.atPath (h : IsEmpty value) {path : List String} (hpath : path ≠ []) :
    atPath path value = none := by
  cases path with
  | nil => exact absurd rfl hpath
  | cons key path => rcases h with rfl | rfl <;> rfl

/-- The new part is found behind its key. -/
theorem atPath_inDefault {entries : List (String × Plist)} (path : List String) :
    atPath (key :: path) (dict (set key item entries)) = atPath path item := by
  rw [atPath, lookup_set_self]
  rfl

theorem Frame.cons {entries : List (String × Plist)} {touched : List (List String)}
    (hdefault : IsEmpty default) (hne : touched ≠ [])
    (h : Frame touched ((entries.lookup key).getD default) item) :
    Frame (touched.map (key :: ·)) (dict entries) (dict (set key item entries)) where
  same := by
    intro path hpath
    cases path with
    | nil =>
      obtain ⟨t, ht⟩ := List.exists_mem_of_ne_nil touched hne
      exact absurd List.nil_prefix (hpath (key :: t) (List.mem_map_of_mem ht)).2
    | cons key' path =>
      by_cases hkey : key' = key
      · subst hkey
        have happart : ∀ t ∈ touched, Apart t path := by
          intro t ht
          have hcons := hpath (key' :: t) (List.mem_map_of_mem ht)
          rwa [Apart, List.prefix_cons_inj, List.prefix_cons_inj] at hcons
        rw [atPath_inDefault, h.same path happart, atPath]
        cases hlookup : entries.lookup key' with
        | some value => rfl
        | none =>
          -- the part is new, so what was not touched is not there
          refine hdefault.atPath ?_
          rintro rfl
          obtain ⟨t, ht⟩ := List.exists_mem_of_ne_nil touched hne
          exact (happart t ht).2 List.nil_prefix
      · rw [atPath, atPath, lookup_set_of_ne hkey]
  keys := by
    intro path entries' hat hpath
    cases path with
    | nil =>
      obtain rfl : entries = entries' := by simpa [atPath] using hat
      exact ⟨_, rfl, keys_set _ _ _⟩
    | cons key' path =>
      by_cases hkey : key' = key
      · subst hkey
        rw [atPath] at hat
        obtain ⟨value, hlookup, hat⟩ := Option.bind_eq_some_iff.mp hat
        rw [hlookup] at h
        rw [atPath_inDefault]
        refine h.keys path entries' hat ?_
        intro t ht hprefix
        exact hpath (key' :: t) (List.mem_map_of_mem ht) ((List.prefix_cons_inj key').mpr hprefix)
      · refine ⟨entries', ?_, List.prefix_rfl⟩
        rw [← hat, atPath, atPath, lookup_set_of_ne hkey]

/-! ## Changes behind a key -/

/-- The change is made to the part behind the key, or to the default, and is found there. -/
theorem inDefault_part (h : inDefault key default f value = .ok value') :
    ∃ item, f ((atPath [key] value).getD default) = .ok item ∧
      ∀ path, atPath (key :: path) value' = atPath path item := by
  obtain ⟨entries, item, rfl, hf, rfl⟩ := inDefault_eq_ok.mp h
  refine ⟨item, ?_, atPath_inDefault⟩
  rw [atPath_singleton]
  exact hf

/-- An empty dictionary has no parts, so it may stand for one that is missing. -/
theorem atPath_getD {path : List String} (hpath : path ≠ []) :
    atPath path ((atPath [key] value).getD (dict [])) = atPath (key :: path) value := by
  cases value with
  | dict entries =>
    rw [atPath_singleton, atPath]
    cases entries.lookup key with
    | none => exact IsEmpty.atPath (Or.inl rfl) hpath
    | some item => rfl
  | string _ | integer _ | real _ | boolean _ | date _ | data _ | uid _ | array _ =>
    exact IsEmpty.atPath (Or.inl rfl) hpath

/-- The same for a key behind a key. -/
theorem inDefault_inDefault_part {key₂ : String}
    (h : inDefault key (dict []) (inDefault key₂ default f) value = .ok value') :
    ∃ item, f ((atPath [key, key₂] value).getD default) = .ok item ∧
      ∀ path, atPath (key :: key₂ :: path) value' = atPath path item := by
  obtain ⟨outer, houter, hpart⟩ := inDefault_part h
  obtain ⟨item, hitem, hpart₂⟩ := inDefault_part houter
  rw [atPath_getD (List.cons_ne_nil _ _)] at hitem
  exact ⟨item, hitem, fun path => (hpart _).trans (hpart₂ path)⟩

theorem atPath_setItem (h : setItem key item value = .ok value') :
    atPath [key] value' = some item := by
  obtain ⟨entries, rfl, rfl⟩ := setItem_eq_ok.mp h
  rw [atPath_singleton, lookup_set_self]

/-- The parts behind the other keys are what they were. -/
theorem atPath_of_ne (h : inDefault key default f value = .ok value') (hne : key' ≠ key)
    (path : List String) : atPath (key' :: path) value' = atPath (key' :: path) value := by
  obtain ⟨entries, item, rfl, -, rfl⟩ := inDefault_eq_ok.mp h
  rw [atPath, atPath, lookup_set_of_ne hne]

theorem Frame.inDefault (touched : List (List String))
    (h : inDefault key default f value = .ok value') (hdefault : IsEmpty default)
    (hne : touched ≠ []) (hf : ∀ item item', f item = .ok item' → Frame touched item item') :
    Frame (touched.map (key :: ·)) value value' := by
  obtain ⟨entries, item, rfl, hitem, rfl⟩ := inDefault_eq_ok.mp h
  exact Frame.cons hdefault hne (hf _ _ hitem)

theorem Frame.setItem (h : setItem key item value = .ok value') :
    Frame [[key]] value value' := by
  obtain ⟨entries, rfl, rfl⟩ := setItem_eq_ok.mp h
  exact Frame.cons (Or.inl rfl) (List.cons_ne_nil _ _) (Frame.whole _ _)

/-- A change that, made a second time, changes nothing. -/
def Settles (f : Plist → Except PyError Plist) : Prop :=
  ∀ value value', f value = .ok value' → f value' = .ok value'

/-- A change that keeps the part it is made to keeps the whole. -/
theorem inDefault_fixed (h : atPath [key] value = some item) (hf : f item = .ok item) :
    inDefault key default f value = .ok value := by
  obtain ⟨entries, part, rfl, hlookup, hpart⟩ := atPath_cons_eq_some.mp h
  obtain rfl : part = item := Option.some.inj hpart
  refine inDefault_eq_ok.mpr ⟨entries, part, rfl, ?_, ?_⟩
  · rw [hlookup]
    exact hf
  · rw [set_of_lookup hlookup]

theorem Settles.setItem (key : String) (item : Plist) : Settles (setItem key item) := by
  intro value value' h
  obtain ⟨entries, rfl, rfl⟩ := setItem_eq_ok.mp h
  rw [Plist.setItem, set_of_lookup (lookup_set_self key item entries)]

theorem Settles.inDefault (hf : Settles f) (key : String) (default : Plist) :
    Settles (inDefault key default f) := by
  intro value value' h
  obtain ⟨item, hitem, hpart⟩ := inDefault_part h
  exact inDefault_fixed (hpart []) (hf _ _ hitem)

/-- Two changes behind different keys, one after the other. -/
theorem Settles.both {g : Plist → Except PyError Plist} {default' : Plist} (hne : key ≠ key')
    (hf : Settles f) (hg : Settles g) : Settles fun value =>
      Plist.inDefault key default f value >>= Plist.inDefault key' default' g := by
  intro value value'' h
  obtain ⟨value', hfirst, hsecond⟩ := bind_eq_ok.mp h
  obtain ⟨item, hitem, hpart⟩ := inDefault_part hfirst
  have hkept : atPath [key] value'' = some item := by
    rw [atPath_of_ne hsecond hne, hpart]
    rfl
  refine bind_eq_ok.mpr ⟨value'', inDefault_fixed hkept (hf _ _ hitem), ?_⟩
  exact hg.inDefault key' default' _ _ hsecond

end Plist
