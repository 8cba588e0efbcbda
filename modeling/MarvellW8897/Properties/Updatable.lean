import MarvellW8897.Plist.Accepts
import MarvellW8897.Properties.UpdateConfig

/-!
# The configs that `update_config` can change

* `Updatable` — the containers on the way are of the right types.
* `updatePl_accepts` — the change raises no exception exactly for these.
* `updateConfig_opens` — the script opens no other config for writing.
-/

namespace MarvellW8897

namespace Scripts

open Effect Plist

variable {Content : Type} {lib : PlistLib Content} {kextName kextExec enableTestSip : String}
  {pl value : Plist} {adds : List Plist} {disk : Disk Content} {t : List (FileEvent Content)}
  {completed opened : Bool}

/-- An array whose elements are dictionaries, as far as the loop goes. -/
def Scannable (kextName : String) (value : Plist) : Prop :=
  ∃ adds, value = .array adds ∧
    ∀ x ∈ adds.takeWhile fun x => !isEntry kextName x, IsDict x

/-- An array, or a value that holds the variable already. -/
def Growable (value : Plist) : Prop :=
  (∃ names, value = .array names) ∨ value.contains "csr-active-config" = .ok true

/-- The parts that have to be dictionaries. -/
def dictPaths (enableTestSip : String) : List (List String) :=
  [[], ["Kernel"]] ++ if enableTestSip == "1" then
    [["NVRAM"], ["NVRAM", "Add"], ["NVRAM", "Add", guid], ["NVRAM", "Delete"]] else []

/-- Any of the parts may be missing, but for the config itself. -/
structure Updatable (kextName enableTestSip : String) (pl : Plist) : Prop where
  dicts : ∀ path ∈ dictPaths enableTestSip, ∀ part, atPath path pl = some part → IsDict part
  adds : ∀ part, atPath ["Kernel", "Add"] pl = some part → Scannable kextName part
  delGuid : enableTestSip = "1" →
    ∀ part, atPath ["NVRAM", "Delete", guid] pl = some part → Growable part

/-! ## The value -/

theorem replaceFirst_accepts : (∃ r, replaceFirst kextName kextExec adds = .ok r) ↔
    ∀ x ∈ adds.takeWhile fun x => !isEntry kextName x, IsDict x := by
  induction adds with
  | nil => simp [replaceFirst]
  | cons x adds ih =>
    cases x with
    | dict e =>
      cases hbundle : hasBundlePath kextName e with
      | true =>
        have hentry : isEntry kextName (.dict e) = true := hbundle
        rw [replaceFirst, if_pos hbundle, List.takeWhile_cons_of_neg (by simp [hentry])]
        simp
      | false =>
        have hentry : isEntry kextName (.dict e) = false := hbundle
        rw [List.takeWhile_cons_of_pos (by simp [hentry]), List.forall_mem_cons, ← ih]
        constructor
        · rintro ⟨⟨adds', replaced⟩, h⟩
          obtain ⟨rest, hrest, -⟩ := (replaceFirst_cons hbundle).mp h
          exact ⟨⟨e, rfl⟩, _, hrest⟩
        · rintro ⟨-, ⟨rest, replaced⟩, hrest⟩
          exact ⟨_, (replaceFirst_cons hbundle).mpr ⟨rest, hrest, rfl⟩⟩
    | string _ | integer _ | real _ | boolean _ | date _ | data _ | uid _ | array _ =>
      rw [List.takeWhile_cons_of_pos rfl]
      simp [replaceFirst, IsDict]

theorem updateAdds_accepts :
    Accepts (updateAdds kextName kextExec) value ↔ Scannable kextName value := by
  cases value with
  | array adds =>
    have hscannable : Scannable kextName (.array adds) ↔
        ∀ x ∈ adds.takeWhile fun x => !isEntry kextName x, IsDict x := by
      constructor
      · rintro ⟨adds', heq, h⟩
        obtain rfl := Plist.array.inj heq
        exact h
      · exact fun h => ⟨adds, rfl, h⟩
    rw [hscannable, ← replaceFirst_accepts]
    constructor
    · rintro ⟨value', h⟩
      obtain ⟨r, hr, -⟩ := bind_eq_ok.mp h
      exact ⟨r, hr⟩
    · rintro ⟨⟨rest, replaced⟩, hr⟩
      cases replaced with
      | true => exact ⟨.array rest, bind_eq_ok.mpr ⟨_, hr, rfl⟩⟩
      | false => exact ⟨_, bind_eq_ok.mpr ⟨_, hr, rfl⟩⟩
  | string _ | integer _ | real _ | boolean _ | date _ | data _ | uid _ | dict _ =>
    simp [Accepts, updateAdds, Scannable]

theorem updateDelGuid_accepts : Accepts updateDelGuid value ↔ Growable value := by
  constructor
  · rintro ⟨value', h⟩
    obtain ⟨found, hfound, heq⟩ := bind_eq_ok.mp h
    cases found with
    | true => exact Or.inr hfound
    | false =>
      cases value with
      | array names => exact Or.inl ⟨names, rfl⟩
      | string _ | integer _ | real _ | boolean _ | date _ | data _ | uid _ | dict _ =>
        simp [append] at heq
  · rintro (⟨names, rfl⟩ | h)
    · obtain ⟨found, hfound⟩ : ∃ found, (Plist.array names).contains "csr-active-config" =
          .ok found := ⟨_, rfl⟩
      cases found with
      | true => exact ⟨_, bind_eq_ok.mpr ⟨true, hfound, rfl⟩⟩
      | false => exact ⟨_, bind_eq_ok.mpr ⟨false, hfound, rfl⟩⟩
    · exact ⟨value, bind_eq_ok.mpr ⟨true, h, rfl⟩⟩

theorem updateNvram_accepts : Accepts updateNvram value ↔
    IsDict value ∧
    ((∀ part, atPath ["Add"] value = some part → IsDict part) ∧
      ∀ part, atPath ["Add", guid] value = some part → IsDict part) ∧
    (∀ part, atPath ["Delete"] value = some part → IsDict part) ∧
      ∀ part, atPath ["Delete", guid] value = some part → Growable part := by
  have hadd : ∀ {part}, Accepts updateAdd part ↔
      IsDict part ∧ ∀ item, atPath [guid] part = some item → IsDict item := by
    intro part
    simp only [updateAdd, accepts_inDefault (accepts_setItem.mpr ⟨[], rfl⟩), accepts_setItem]
  have hdelete : ∀ {part}, Accepts updateDelete part ↔
      IsDict part ∧ ∀ item, atPath [guid] part = some item → Growable item := by
    intro part
    have hempty : Accepts updateDelGuid (.array []) := updateDelGuid_accepts.mpr (Or.inl ⟨[], rfl⟩)
    simp only [updateDelete, accepts_inDefault hempty, updateDelGuid_accepts]
  have hnone : ∀ {Q : Plist → Prop} item, atPath [guid] (.dict []) = some item → Q item := by
    rintro Q item ⟨⟩
  refine (accepts_both (by decide) (hdelete.mpr ⟨⟨[], rfl⟩, hnone⟩)).trans ?_
  rw [accepts_inDefault (hadd.mpr ⟨⟨[], rfl⟩, hnone⟩),
    accepts_inDefault (hdelete.mpr ⟨⟨[], rfl⟩, hnone⟩)]
  simp only [hadd, hdelete, imp_and, forall_and, forall_behind]
  exact ⟨fun h => ⟨h.1.1, h.1.2, h.2.2⟩, fun h => ⟨⟨h.1, h.2.1⟩, h.1, h.2.2⟩⟩

/-- The change of the kernel part. -/
theorem updateKernel_accepts :
    Accepts (inDefault "Kernel" (.dict []) (inDefault "Add" (.array [])
      (updateAdds kextName kextExec))) pl ↔
    IsDict pl ∧ (∀ part, atPath ["Kernel"] pl = some part → IsDict part) ∧
      ∀ part, atPath ["Kernel", "Add"] pl = some part → Scannable kextName part := by
  have hempty : Accepts (updateAdds kextName kextExec) (.array []) :=
    updateAdds_accepts.mpr ⟨[], rfl, by simp⟩
  have hinner : ∀ {part},
      Accepts (inDefault "Add" (.array []) (updateAdds kextName kextExec)) part ↔
      IsDict part ∧ ∀ item, atPath ["Add"] part = some item → Scannable kextName item := by
    intro part
    simp only [accepts_inDefault hempty, updateAdds_accepts]
  rw [accepts_inDefault (hinner.mpr ⟨⟨[], rfl⟩, by rintro item ⟨⟩⟩)]
  simp only [hinner, imp_and, forall_and, forall_behind]

theorem updatable_iff : Updatable kextName enableTestSip pl ↔
    (IsDict pl ∧ (∀ part, atPath ["Kernel"] pl = some part → IsDict part) ∧
      ∀ part, atPath ["Kernel", "Add"] pl = some part → Scannable kextName part) ∧
    (enableTestSip = "1" → (∀ part, atPath ["NVRAM"] pl = some part → IsDict part) ∧
      ((∀ part, atPath ["NVRAM", "Add"] pl = some part → IsDict part) ∧
        ∀ part, atPath ["NVRAM", "Add", guid] pl = some part → IsDict part) ∧
      (∀ part, atPath ["NVRAM", "Delete"] pl = some part → IsDict part) ∧
        ∀ part, atPath ["NVRAM", "Delete", guid] pl = some part → Growable part) := by
  have hroot : (∀ part, atPath [] pl = some part → IsDict part) ↔ IsDict pl := by simp [atPath]
  constructor
  · rintro ⟨hdicts, hadds, hdelGuid⟩
    refine ⟨⟨hroot.mp (hdicts [] (by simp [dictPaths])), hdicts _ (by simp [dictPaths]), hadds⟩, ?_⟩
    rintro rfl
    exact ⟨hdicts _ (by simp [dictPaths]), ⟨hdicts _ (by simp [dictPaths]),
      hdicts _ (by simp [dictPaths])⟩, hdicts _ (by simp [dictPaths]), hdelGuid rfl⟩
  · rintro ⟨⟨hpl, hkernel, hadds⟩, hnvram⟩
    refine ⟨?_, hadds, fun h => (hnvram h).2.2.2⟩
    intro path hpath
    rcases List.mem_append.mp hpath with hpath | hpath
    · simp only [List.mem_cons, List.not_mem_nil, or_false] at hpath
      rcases hpath with rfl | rfl
      · exact hroot.mpr hpl
      · exact hkernel
    · split at hpath
      · next hsip =>
        obtain ⟨h, ⟨hadd, haddGuid⟩, hdelete, -⟩ := hnvram (by simpa using hsip)
        simp only [List.mem_cons, List.not_mem_nil, or_false] at hpath
        rcases hpath with rfl | rfl | rfl | rfl
        · exact h
        · exact hadd
        · exact haddGuid
        · exact hdelete
      · cases hpath

/-- The change raises no exception exactly where the containers are of the right types. -/
theorem updatePl_accepts : Accepts (updatePl kextName kextExec enableTestSip) pl ↔
    Updatable kextName enableTestSip pl := by
  have hkernel : Accepts (inDefault "Kernel" (.dict []) (inDefault "Add" (.array [])
      (updateAdds kextName kextExec))) pl ↔ _ := updateKernel_accepts
  rw [updatable_iff, ← hkernel]
  clear hkernel
  by_cases hsip : enableTestSip = "1"
  · subst hsip
    have hempty : Accepts updateNvram (.dict []) :=
      updateNvram_accepts.mpr ⟨⟨[], rfl⟩, ⟨by rintro part ⟨⟩, by rintro part ⟨⟩⟩,
        by rintro part ⟨⟩, by rintro part ⟨⟩⟩
    refine (accepts_both (by decide) hempty).trans (and_congr_right fun hkernel => ?_)
    have hpl : IsDict pl := (updateKernel_accepts.mp hkernel).1
    rw [accepts_inDefault hempty]
    simp only [updateNvram_accepts, imp_and, forall_and, forall_behind, hpl, true_and, forall_const]
  · have hpure : ∀ pl : Plist, (if enableTestSip == "1" then
        inDefault "NVRAM" (.dict []) updateNvram pl else pure pl : Except PyError Plist) = .ok pl :=
      fun pl => if_neg (by simpa using hsip)
    simp only [hsip, false_implies, and_true]
    constructor
    · rintro ⟨pl', h⟩
      obtain ⟨mid, hmid, -⟩ := bind_eq_ok.mp h
      exact ⟨mid, hmid⟩
    · rintro ⟨mid, hmid⟩
      exact ⟨mid, bind_eq_ok.mpr ⟨mid, hmid, hpure mid⟩⟩

/-! ## The file -/

/-- What is read from another config leads to no further operation. -/
theorem rewriteConfig_rejects {read : Option Content}
    (hnot : ∀ text pl, read = some text → lib.load text = some pl →
      ¬ Updatable kextName enableTestSip pl)
    (h : Runs (rewriteConfig lib kextName kextExec enableTestSip read) t completed) :
    t = [] ∧ completed = false := by
  unfold rewriteConfig at h
  cases hload : read.bind lib.load with
  | none =>
    rw [hload] at h
    exact runs_pure.mp h
  | some pl =>
    rw [hload] at h
    obtain ⟨text, htext, hpl⟩ := Option.bind_eq_some_iff.mp hload
    dsimp only at h
    cases hupdate : updatePl kextName kextExec enableTestSip pl with
    | error e =>
      rw [hupdate] at h
      exact runs_pure.mp h
    | ok pl' => exact absurd (updatePl_accepts.mp ⟨pl', hupdate⟩) (hnot text pl htext hpl)

/--
The change can be made exactly to the configs whose containers are of the right types. With any
other config the script does not come to its end, and wherever it stops the config is as it was.
-/
theorem updateConfig_opens (lib : PlistLib Content) (kextName kextExec enableTestSip : String) :
    (∀ pl, (∃ pl', updatePl kextName kextExec enableTestSip pl = .ok pl') ↔
      Updatable kextName enableTestSip pl) ∧
    ∀ disk t completed, Runs (updateConfig lib kextName kextExec enableTestSip) t completed →
      ReadsDisk lib disk t →
      (∀ pl, lib.load disk.config = some pl → ¬ Updatable kextName enableTestSip pl) →
      completed = false ∧ ∀ u, u <+: t → (diskAfter lib disk u).config = disk.config := by
  refine ⟨fun pl => updatePl_accepts, fun disk t completed h hreads hnot => ?_⟩
  have hkeeps : completed = false ∧ ∀ e ∈ t, e.op.KeepsConfig := by
    rcases updateConfig_cases h with hfailed | ⟨copy, read, rest, rfl, hcopy, hrewrite⟩
    · exact hfailed
    have hcopied := copy2_keepsConfig copy true hcopy
    obtain ⟨rfl, rfl⟩ := rewriteConfig_rejects (fun text pl hread hload => by
      have htext := hreads.of_append.1 text (by rw [hread])
      rw [diskAfter_config hcopied] at htext
      exact hnot pl (htext ▸ hload)) hrewrite
    refine ⟨rfl, fun e he => ?_⟩
    rcases List.mem_append.mp he with he | he
    · exact hcopied e he
    · rw [List.mem_singleton.mp he]
      trivial
  exact ⟨hkeeps.1, fun u hu => diskAfter_config fun e he => hkeeps.2 e (hu.subset he)⟩

/-- A config whose list of kernel extensions holds a string. -/
def textConfig : Plist := .dict [("Kernel", .dict [("Add", .array [.string "MarvellW8897Kext"])])]

def rejectedRun : List (FileEvent (Option Plist)) :=
  [⟨.sameFile, false⟩, ⟨.openSource, true⟩, ⟨.openBackup, true⟩, ⟨.copyData, none⟩,
    ⟨.copyStat, true⟩, ⟨.readConfig, some (some textConfig)⟩]

theorem updateConfig_opens_text :
    (diskAfter valueLib ⟨some textConfig, none⟩ rejectedRun).config = some textConfig ∧
      Runs (updateConfig valueLib "MarvellW8897Kext.kext" "MarvellW8897Kext" "0") rejectedRun
        false := by
  have hrun : Runs (updateConfig valueLib "MarvellW8897Kext.kext" "MarvellW8897Kext" "0")
      rejectedRun false := by
    have hcopy : Runs (copy2 : FileM (Option Plist) Bool) [⟨.sameFile, false⟩, ⟨.openSource, true⟩,
        ⟨.openBackup, true⟩, ⟨.copyData, none⟩, ⟨.copyStat, true⟩] true := by
      refine runs_ask_bind.mpr ⟨false, _, rfl, runs_guard.mpr ⟨rfl, ?_⟩⟩
      refine runs_ask_bind.mpr ⟨true, _, rfl, runs_guard.mpr ⟨rfl, ?_⟩⟩
      refine runs_ask_bind.mpr ⟨true, _, rfl, runs_guard.mpr ⟨rfl, ?_⟩⟩
      refine runs_ask_bind.mpr ⟨none, _, rfl, runs_whole.mpr ⟨rfl, ?_⟩⟩
      exact runs_ask.mpr rfl
    refine hcopy.bind ?_
    rw [if_neg (by simp)]
    exact runs_ask_bind.mpr ⟨some (some textConfig), _, rfl, Runs.pure _⟩
  have hreads : ReadsDisk valueLib ⟨some textConfig, none⟩ rejectedRun := by
    refine ⟨?_, ?_, ?_, ?_, ?_, ?_, trivial⟩ <;> intro content h <;> cases h
    rfl
  have hnot : ∀ pl, valueLib.load (some textConfig) = some pl →
      ¬ Updatable "MarvellW8897Kext.kext" "0" pl := by
    rintro pl hload ⟨-, hadds, -⟩
    obtain rfl : textConfig = pl := Option.some.inj hload
    obtain ⟨adds, heq, hdicts⟩ := hadds (.array [.string "MarvellW8897Kext"]) rfl
    obtain rfl := Plist.array.inj heq
    obtain ⟨entries, hdict⟩ := hdicts (.string "MarvellW8897Kext") (by simp [counted])
    cases hdict
  obtain ⟨-, hkept⟩ := (updateConfig_opens valueLib "MarvellW8897Kext.kext" "MarvellW8897Kext"
    "0").2 ⟨some textConfig, none⟩ rejectedRun false hrun hreads hnot
  exact ⟨hkept rejectedRun List.prefix_rfl, hrun⟩

end Scripts

end MarvellW8897
