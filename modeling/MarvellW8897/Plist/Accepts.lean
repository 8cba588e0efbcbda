import MarvellW8897.Plist.Value

/-!
# Changes that raise no exception

* `Accepts` — the values that a change can be made to.
* `accepts_inDefault` — a change behind a key, in terms of the part behind it.
* `forall_behind` — what holds of the parts behind a part.
* `accepts_both` — two changes behind different keys do not get in each other's way.
-/

namespace Plist

open Dictionary

variable {key key' : String} {default default' value value' item : Plist}
  {f g : Plist → Except PyError Plist}

def Accepts (f : Plist → Except PyError Plist) (value : Plist) : Prop :=
  ∃ value', f value = .ok value'

def IsDict (value : Plist) : Prop := ∃ entries, value = dict entries

theorem atPath_cons (path : List String) :
    atPath (key :: path) value = (atPath [key] value).bind (atPath path) := by
  cases value with
  | dict entries => rw [atPath_singleton, atPath]
  | string _ | integer _ | real _ | boolean _ | date _ | data _ | uid _ | array _ => rfl

/-- What holds of all that is behind the part behind a key. -/
theorem forall_behind {Q : Plist → Prop} {path : List String} :
    (∀ part, atPath [key] value = some part → ∀ item, atPath path part = some item → Q item) ↔
      ∀ item, atPath (key :: path) value = some item → Q item := by
  simp only [atPath_cons path, Option.bind_eq_some_iff]
  exact ⟨fun h item ⟨part, hpart, hitem⟩ => h part hpart item hitem,
    fun h part hpart item hitem => h item ⟨part, hpart, hitem⟩⟩

theorem accepts_setItem : Accepts (setItem key item) value ↔ IsDict value := by
  constructor
  · rintro ⟨value', h⟩
    obtain ⟨entries, rfl, -⟩ := setItem_eq_ok.mp h
    exact ⟨entries, rfl⟩
  · rintro ⟨entries, rfl⟩
    exact ⟨_, rfl⟩

/-- The value is a dictionary, and the change can be made to the part, if there is one. -/
theorem accepts_inDefault (hdefault : Accepts f default) :
    Accepts (inDefault key default f) value ↔
      IsDict value ∧ ∀ part, atPath [key] value = some part → Accepts f part := by
  constructor
  · rintro ⟨value', h⟩
    obtain ⟨entries, item, rfl, hf, -⟩ := inDefault_eq_ok.mp h
    refine ⟨⟨entries, rfl⟩, fun part hpart => ⟨item, ?_⟩⟩
    rw [atPath_singleton] at hpart
    rwa [hpart] at hf
  · rintro ⟨⟨entries, rfl⟩, hpart⟩
    rw [atPath_singleton] at hpart
    have hitem : Accepts f ((entries.lookup key).getD default) := by
      cases hlookup : entries.lookup key with
      | none => exact hdefault
      | some part => exact hpart part hlookup
    obtain ⟨item, hitem⟩ := hitem
    exact ⟨_, inDefault_eq_ok.mpr ⟨entries, item, rfl, hitem, rfl⟩⟩

theorem accepts_both (hne : key ≠ key') (hdefault : Accepts g default') :
    Accepts (fun value => inDefault key default f value >>= inDefault key' default' g) value ↔
      Accepts (inDefault key default f) value ∧ Accepts (inDefault key' default' g) value := by
  have hsame : ∀ {mid}, inDefault key default f value = .ok mid →
      (Accepts (inDefault key' default' g) mid ↔ Accepts (inDefault key' default' g) value) := by
    intro mid hmid
    rw [accepts_inDefault hdefault, accepts_inDefault hdefault, atPath_of_ne hmid hne.symm]
    obtain ⟨entries, item, rfl, -, rfl⟩ := inDefault_eq_ok.mp hmid
    exact and_congr_left fun _ => ⟨fun _ => ⟨_, rfl⟩, fun _ => ⟨_, rfl⟩⟩
  constructor
  · rintro ⟨value', h⟩
    obtain ⟨mid, hmid, hrest⟩ := bind_eq_ok.mp h
    exact ⟨⟨mid, hmid⟩, (hsame hmid).mp ⟨value', hrest⟩⟩
  · rintro ⟨⟨mid, hmid⟩, hsecond⟩
    obtain ⟨value', hrest⟩ := (hsame hmid).mpr hsecond
    exact ⟨value', bind_eq_ok.mpr ⟨mid, hmid, hrest⟩⟩

end Plist
