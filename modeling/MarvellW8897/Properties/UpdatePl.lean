import MarvellW8897.Properties.Counters
import MarvellW8897.Scripts.UpdateConfig

/-!
# What `update_config` does to the value of a config

* `Placed` — the entry merged into the first one with its bundle path, or added at the end.
* `Updated` — the change of the whole config, and what it leaves alone.
* `updatePl_settles` — a second update changes nothing.
* `Updated.counted` — both counters find the entry of the deploy script.
-/

namespace MarvellW8897

namespace Scripts

open Dictionary Plist

variable {kextName kextExec enableTestSip : String} {pl pl' value value' : Plist}
  {adds adds' : List Plist} {e e' : List (String × Plist)} {replaced : Bool}

/-! ## The entry -/

theorem nodup_entry (kextName kextExec : String) :
    ((entry kextName kextExec).map Prod.fst).Nodup := by
  simp only [entry, List.map_cons, List.map_nil]
  decide

theorem entry_settles (kextName kextExec : String) :
    update (entry kextName kextExec) (entry kextName kextExec) = entry kextName kextExec := by
  refine update_of_lookup ?_
  simp [entry, List.lookup_cons]

theorem hasBundlePath_iff : hasBundlePath kextName e = true ↔
    e.lookup "BundlePath" = some (.string kextName) := by
  unfold hasBundlePath
  split
  · next s hs => simp [hs]
  · next hne =>
    constructor
    · simp
    · intro h
      exact absurd h (hne kextName)

theorem bundlePath_mem_entry (kextName kextExec : String) :
    ("BundlePath", Plist.string kextName) ∈ entry kextName kextExec := by
  simp [entry]

/-! ## The list -/

/-- An entry with this bundle path. -/
abbrev isEntry (kextName : String) : Plist → Bool := counted (hasBundlePath kextName)

/-- `e'` is `e` with the managed keys set: the keys that `e` has keep their order. -/
structure Merged (kextName kextExec : String) (e e' : List (String × Plist)) : Prop where
  managed : ∀ key value, (key, value) ∈ entry kextName kextExec → e'.lookup key = some value
  others : ∀ key, key ∉ (entry kextName kextExec).map Prod.fst → e'.lookup key = e.lookup key
  order : e.map Prod.fst <+: e'.map Prod.fst

/-- The first entry with the bundle path is merged where it is; without one, the entry is added. -/
inductive Placed (kextName kextExec : String) : List Plist → List Plist → Prop where
  | merged {before after : List Plist} {e e' : List (String × Plist)}
      (hfirst : ∀ x ∈ before, isEntry kextName x = false)
      (hbundle : hasBundlePath kextName e = true) (hmerged : Merged kextName kextExec e e') :
      Placed kextName kextExec (before ++ .dict e :: after) (before ++ .dict e' :: after)
  | appended {adds : List Plist} (hnone : ∀ x ∈ adds, isEntry kextName x = false) :
      Placed kextName kextExec adds (adds ++ [.dict (entry kextName kextExec)])

theorem merged_update (kextName kextExec : String) (e : List (String × Plist)) :
    Merged kextName kextExec e (update (entry kextName kextExec) e) where
  managed := fun _ _ h => lookup_update_of_mem (nodup_entry _ _) h
  others := fun _ h => lookup_update_of_notMem h
  order := keys_update _ _

theorem Merged.hasBundlePath (h : Merged kextName kextExec e e') :
    hasBundlePath kextName e' = true :=
  hasBundlePath_iff.mpr (h.managed _ _ (bundlePath_mem_entry kextName kextExec))

theorem Placed.cons {x : Plist} (hx : isEntry kextName x = false)
    (h : Placed kextName kextExec adds adds') :
    Placed kextName kextExec (x :: adds) (x :: adds') := by
  cases h with
  | merged hfirst hbundle hmerged =>
    rw [← List.cons_append, ← List.cons_append]
    exact Placed.merged (List.forall_mem_cons.mpr ⟨hx, hfirst⟩) hbundle hmerged
  | appended hnone => exact Placed.appended (List.forall_mem_cons.mpr ⟨hx, hnone⟩)

/-- The new entry is in the list. -/
theorem Placed.exists_merged (h : Placed kextName kextExec adds adds') :
    ∃ e, Plist.dict e ∈ adds' ∧ e.lookup "BundlePath" = some (.string kextName) := by
  cases h with
  | merged hfirst hbundle hmerged =>
    exact ⟨_, List.mem_append_right _ List.mem_cons_self,
      hasBundlePath_iff.mp hmerged.hasBundlePath⟩
  | appended hnone =>
    exact ⟨_, List.mem_append_right _ List.mem_cons_self, by simp [entry, List.lookup_cons]⟩

/-- Entries with the bundle path are neither added to others nor removed. -/
theorem Placed.countP (h : Placed kextName kextExec adds adds') :
    adds'.countP (isEntry kextName) = max 1 (adds.countP (isEntry kextName)) := by
  have hzero : ∀ {l : List Plist}, (∀ x ∈ l, isEntry kextName x = false) →
      l.countP (isEntry kextName) = 0 := by
    intro l hl
    refine List.countP_eq_zero.mpr fun x hx => ?_
    simp [hl x hx]
  cases h with
  | merged hfirst hbundle hmerged =>
    have hold : isEntry kextName (.dict _) = true := hbundle
    have hnew : isEntry kextName (.dict _) = true := hmerged.hasBundlePath
    rw [List.countP_append, List.countP_append, hzero hfirst, List.countP_cons_of_pos hold,
      List.countP_cons_of_pos hnew]
    omega
  | appended hnone =>
    have hentry : isEntry kextName (.dict (entry kextName kextExec)) = true := by
      simp [isEntry, counted, hasBundlePath, entry, List.lookup_cons]
    rw [List.countP_append, hzero hnone, List.countP_cons_of_pos hentry]
    rfl

/-! ## The loop -/

/-- One turn of the loop, at an entry with another bundle path. -/
theorem replaceFirst_cons (h : hasBundlePath kextName e = false) :
    replaceFirst kextName kextExec (.dict e :: adds) = .ok (adds', replaced) ↔
      ∃ rest, replaceFirst kextName kextExec adds = .ok (rest, replaced) ∧
        adds' = .dict e :: rest := by
  rw [replaceFirst, if_neg (by simp [h]), bind_eq_ok]
  constructor
  · rintro ⟨⟨rest, found⟩, hrest, heq⟩
    obtain ⟨rfl, rfl⟩ := Prod.mk.inj (Except.ok.inj heq)
    exact ⟨rest, hrest, rfl⟩
  · rintro ⟨rest, hrest, rfl⟩
    exact ⟨(rest, replaced), hrest, rfl⟩

/-- A loop that replaces an entry. -/
theorem replaceFirst_true (h : replaceFirst kextName kextExec adds = .ok (adds', true)) :
    Placed kextName kextExec adds adds' ∧
      replaceFirst kextName kextExec adds' = .ok (adds', true) := by
  induction adds generalizing adds' with
  | nil => simp [replaceFirst] at h
  | cons x adds ih =>
    cases x with
    | dict e =>
      cases hbundle : hasBundlePath kextName e with
      | true =>
        rw [replaceFirst, if_pos hbundle] at h
        obtain ⟨rfl, -⟩ := Prod.mk.inj (Except.ok.inj h)
        have hmerged := merged_update kextName kextExec e
        refine ⟨Placed.merged (List.forall_mem_nil _) hbundle hmerged, ?_⟩
        rw [replaceFirst, if_pos hmerged.hasBundlePath, update_update (nodup_entry _ _)]
      | false =>
        obtain ⟨rest, hrest, rfl⟩ := (replaceFirst_cons hbundle).mp h
        obtain ⟨hplaced, hagain⟩ := ih hrest
        exact ⟨hplaced.cons hbundle, (replaceFirst_cons hbundle).mpr ⟨rest, hagain, rfl⟩⟩
    | string _ | integer _ | real _ | boolean _ | date _ | data _ | uid _ | array _ =>
      simp [replaceFirst] at h

/-- A loop that replaces none goes on with what is added. -/
theorem replaceFirst_false (h : replaceFirst kextName kextExec adds = .ok (adds', false)) :
    adds' = adds ∧ (∀ x ∈ adds, isEntry kextName x = false) ∧
      ∀ e, hasBundlePath kextName e = true →
        replaceFirst kextName kextExec (adds ++ [.dict e]) =
          .ok (adds ++ [.dict (update (entry kextName kextExec) e)], true) := by
  induction adds generalizing adds' with
  | nil =>
    obtain ⟨rfl, -⟩ := Prod.mk.inj (Except.ok.inj h)
    refine ⟨rfl, List.forall_mem_nil _, fun e hbundle => ?_⟩
    rw [List.nil_append, replaceFirst, if_pos hbundle]
    rfl
  | cons x adds ih =>
    cases x with
    | dict e =>
      cases hbundle : hasBundlePath kextName e with
      | true => simp [replaceFirst, hbundle] at h
      | false =>
        obtain ⟨rest, hrest, rfl⟩ := (replaceFirst_cons hbundle).mp h
        obtain ⟨rfl, hnone, hadded⟩ := ih hrest
        refine ⟨rfl, List.forall_mem_cons.mpr ⟨hbundle, hnone⟩, fun e' hbundle' => ?_⟩
        exact (replaceFirst_cons hbundle).mpr ⟨_, hadded e' hbundle', rfl⟩
    | string _ | integer _ | real _ | boolean _ | date _ | data _ | uid _ | array _ =>
      simp [replaceFirst] at h

/-- What the update does to `Kernel/Add`. -/
theorem updateAdds_cases (h : updateAdds kextName kextExec value = .ok value') :
    ∃ adds adds', value = .array adds ∧ value' = .array adds' ∧
      Placed kextName kextExec adds adds' ∧ updateAdds kextName kextExec value' = .ok value' := by
  cases value with
  | array adds =>
    obtain ⟨⟨rest, replaced⟩, hrest, heq⟩ := bind_eq_ok.mp h
    cases replaced with
    | true =>
      obtain rfl : Plist.array rest = value' := Except.ok.inj heq
      obtain ⟨hplaced, hagain⟩ := replaceFirst_true hrest
      exact ⟨adds, rest, rfl, rfl, hplaced, bind_eq_ok.mpr ⟨_, hagain, rfl⟩⟩
    | false =>
      obtain ⟨rfl, hnone, hadded⟩ := replaceFirst_false hrest
      have happend : Except.ok (.array (rest ++ [.dict (entry kextName kextExec)])) =
          Except.ok value' := heq
      obtain rfl := Except.ok.inj happend
      have hagain := hadded (entry kextName kextExec)
        (by simp [hasBundlePath, entry, List.lookup_cons])
      rw [entry_settles] at hagain
      exact ⟨rest, _, rfl, rfl, Placed.appended hnone, bind_eq_ok.mpr ⟨_, hagain, rfl⟩⟩
  | string _ | integer _ | real _ | boolean _ | date _ | data _ | uid _ | dict _ =>
    simp [updateAdds] at h

/-! ## The boot arguments -/

/-- `csr-active-config` is added to the variables to delete, unless it is one of them. -/
inductive Gained : Plist → Plist → Prop where
  | present {delGuid : Plist} (h : delGuid.contains "csr-active-config" = .ok true) :
      Gained delGuid delGuid
  | absent {names : List Plist}
      (h : (Plist.array names).contains "csr-active-config" = .ok false) :
      Gained (.array names) (.array (names ++ [.string "csr-active-config"]))

theorem updateDelGuid_cases (h : updateDelGuid value = .ok value') :
    Gained value value' ∧ value'.contains "csr-active-config" = .ok true := by
  obtain ⟨found, hfound, heq⟩ := bind_eq_ok.mp h
  cases found with
  | true =>
    obtain rfl : value = value' := Except.ok.inj heq
    exact ⟨Gained.present hfound, hfound⟩
  | false =>
    cases value with
    | array names =>
      have happend : Except.ok (.array (names ++ [.string "csr-active-config"])) =
          Except.ok value' := heq
      obtain rfl := Except.ok.inj happend
      exact ⟨Gained.absent hfound, by simp [contains]⟩
    | string _ | integer _ | real _ | boolean _ | date _ | data _ | uid _ | dict _ =>
      simp [append] at heq

theorem updateDelGuid_settles : Settles updateDelGuid := by
  intro value value' h
  exact bind_eq_ok.mpr ⟨true, (updateDelGuid_cases h).2, rfl⟩

theorem updateNvram_settles : Settles updateNvram :=
  Settles.both (by decide) ((Settles.setItem _ _).inDefault _ _)
    (updateDelGuid_settles.inDefault _ _)

/-- Behind the one GUID, `Add` has the value and `Delete` the name. -/
structure CsrUpdated (nvram nvram' : Plist) : Prop where
  add : atPath ["Add", guid, "csr-active-config"] nvram' =
    some (.data [0x03, 0x00, 0x00, 0x00])
  delete : ∃ delGuid', atPath ["Delete", guid] nvram' = some delGuid' ∧
    Gained ((atPath ["Delete", guid] nvram).getD (.array [])) delGuid'
  frame : Frame [["Add", guid, "csr-active-config"], ["Delete", guid]] nvram nvram'

theorem updateNvram_cases (h : updateNvram value = .ok value') : CsrUpdated value value' := by
  obtain ⟨added, hadd, hdelete⟩ := bind_eq_ok.mp h
  have hadd' : inDefault "Add" (.dict []) (inDefault guid (.dict []) _) value = .ok added := hadd
  have hdelete' : inDefault "Delete" (.dict []) (inDefault guid (.array []) updateDelGuid) added =
    .ok value' := hdelete
  refine ⟨?_, ?_, ?_⟩
  · obtain ⟨addGuid, hset, hpart⟩ := inDefault_inDefault_part hadd'
    rw [atPath_of_ne hdelete (by decide), hpart]
    exact atPath_setItem hset
  · obtain ⟨delGuid', hdelGuid, hpart⟩ := inDefault_inDefault_part hdelete'
    rw [atPath_of_ne hadd (by decide)] at hdelGuid
    exact ⟨delGuid', hpart [], (updateDelGuid_cases hdelGuid).1⟩
  · have hframeAdd : Frame [["Add", guid, "csr-active-config"]] value added := by
      refine Frame.inDefault [[guid, "csr-active-config"]] hadd' (Or.inl rfl) (by simp) ?_
      intro add add' hguid
      refine Frame.inDefault [["csr-active-config"]] hguid (Or.inl rfl) (by simp) ?_
      exact fun _ _ hset => Frame.setItem hset
    have hframeDelete : Frame [["Delete", guid]] added value' := by
      refine Frame.inDefault [[guid]] hdelete' (Or.inl rfl) (by simp) ?_
      intro delete delete' hguid
      refine Frame.inDefault [[]] hguid (Or.inr rfl) (by simp) ?_
      exact fun _ _ _ => Frame.whole _ _
    exact hframeAdd.trans hframeDelete

/-! ## The whole config -/

/-- The parts of a config that the update may change. -/
def touched (enableTestSip : String) : List (List String) :=
  ["Kernel", "Add"] ::
    if enableTestSip == "1" then
      [["NVRAM", "Add", guid, "csr-active-config"], ["NVRAM", "Delete", guid]]
    else
      []

/-- What the update does to a config. -/
structure Updated (kextName kextExec enableTestSip : String) (pl pl' : Plist) : Prop where
  frame : Frame (touched enableTestSip) pl pl'
  entries : ∃ adds adds', (atPath ["Kernel", "Add"] pl).getD (.array []) = .array adds ∧
    atPath ["Kernel", "Add"] pl' = some (.array adds') ∧ Placed kextName kextExec adds adds'
  csrAdd : enableTestSip = "1" → atPath ["NVRAM", "Add", guid, "csr-active-config"] pl' =
    some (.data [0x03, 0x00, 0x00, 0x00])
  csrDelete : enableTestSip = "1" → ∃ delGuid', atPath ["NVRAM", "Delete", guid] pl' =
    some delGuid' ∧ Gained ((atPath ["NVRAM", "Delete", guid] pl).getD (.array [])) delGuid'

/-- What the update does to `Kernel`. -/
abbrev updateKernel (kextName kextExec : String) : Plist → Except PyError Plist :=
  inDefault "Kernel" (.dict []) (inDefault "Add" (.array []) (updateAdds kextName kextExec))

theorem updateAdds_settles : Settles (updateAdds kextName kextExec) := by
  intro value value' h
  obtain ⟨-, -, -, -, -, hagain⟩ := updateAdds_cases h
  exact hagain

theorem frame_updateKernel (h : updateKernel kextName kextExec pl = .ok pl') :
    Frame [["Kernel", "Add"]] pl pl' := by
  refine Frame.inDefault [["Add"]] h (Or.inl rfl) (by simp) ?_
  intro kernel kernel' hadd
  refine Frame.inDefault [[]] hadd (Or.inr rfl) (by simp) ?_
  exact fun _ _ _ => Frame.whole _ _

theorem updateKernel_entries (h : updateKernel kextName kextExec pl = .ok pl') :
    ∃ adds adds', (atPath ["Kernel", "Add"] pl).getD (.array []) = .array adds ∧
      atPath ["Kernel", "Add"] pl' = some (.array adds') ∧ Placed kextName kextExec adds adds' := by
  obtain ⟨item, hadds, hpart⟩ := inDefault_inDefault_part h
  obtain ⟨adds, adds', hold, rfl, hplaced, -⟩ := updateAdds_cases hadds
  exact ⟨adds, adds', hold, hpart [], hplaced⟩

theorem updatePl_updated (h : updatePl kextName kextExec enableTestSip pl = .ok pl') :
    Updated kextName kextExec enableTestSip pl pl' := by
  obtain ⟨placed, hkernel, hrest⟩ := bind_eq_ok.mp h
  obtain ⟨adds, adds', hold, hnew, hplaced⟩ := updateKernel_entries hkernel
  have hframe := frame_updateKernel hkernel
  by_cases hsip : enableTestSip = "1"
  · rw [if_pos (beq_iff_eq.mpr hsip)] at hrest
    obtain ⟨nvram, hnvram, hpart⟩ := inDefault_part hrest
    have hcsr := updateNvram_cases hnvram
    refine ⟨?_, ⟨adds, adds', hold, ?_, hplaced⟩, fun _ => ?_, fun _ => ?_⟩
    · rw [touched, if_pos (beq_iff_eq.mpr hsip)]
      refine hframe.trans ?_
      refine Frame.inDefault [["Add", guid, "csr-active-config"], ["Delete", guid]] hrest
        (Or.inl rfl) (by simp) ?_
      exact fun _ _ hnvram => (updateNvram_cases hnvram).frame
    · rw [atPath_of_ne hrest (by decide), hnew]
    · rw [hpart, hcsr.add]
    · obtain ⟨delGuid', hfound, hgained⟩ := hcsr.delete
      rw [atPath_getD (List.cons_ne_nil _ _), atPath_of_ne hkernel (by decide)] at hgained
      exact ⟨delGuid', (hpart _).trans hfound, hgained⟩
  · rw [if_neg (by simpa using hsip)] at hrest
    obtain rfl : placed = pl' := Except.ok.inj hrest
    refine ⟨?_, ⟨adds, adds', hold, hnew, hplaced⟩, fun h => absurd h hsip,
      fun h => absurd h hsip⟩
    rw [touched, if_neg (by simpa using hsip)]
    exact hframe

/-- The number of entries with the bundle path. -/
def entryCount (kextName : String) (pl : Plist) : Nat :=
  match atPath ["Kernel", "Add"] pl with
  | some (.array adds) => adds.countP (isEntry kextName)
  | _ => 0

/-- The update adds an entry only if there was none. -/
theorem Updated.entryCount (h : Updated kextName kextExec enableTestSip pl pl') :
    entryCount kextName pl' = max 1 (entryCount kextName pl) := by
  obtain ⟨adds, adds', hold, hnew, hplaced⟩ := h.entries
  have hcount : Scripts.entryCount kextName pl = adds.countP (isEntry kextName) := by
    unfold Scripts.entryCount
    cases hat : atPath ["Kernel", "Add"] pl with
    | none =>
      rw [hat] at hold
      obtain rfl : [] = adds := Plist.array.inj hold
      rfl
    | some value =>
      rw [hat] at hold
      obtain rfl : value = .array adds := hold
      rfl
  rw [hcount, ← hplaced.countP, Scripts.entryCount, hnew]

/-- A second update changes nothing. -/
theorem updatePl_settles (kextName kextExec enableTestSip : String) :
    Settles (updatePl kextName kextExec enableTestSip) := by
  have hadds : Settles (inDefault "Add" (.array []) (updateAdds kextName kextExec)) :=
    updateAdds_settles.inDefault _ _
  by_cases hsip : enableTestSip = "1"
  · have hboth : Settles fun pl => updateKernel kextName kextExec pl >>=
        inDefault "NVRAM" (.dict []) updateNvram :=
      Settles.both (by decide) hadds updateNvram_settles
    subst hsip
    exact hboth
  · intro pl pl' h
    obtain ⟨placed, hkernel, hrest⟩ := bind_eq_ok.mp h
    rw [if_neg (by simpa using hsip)] at hrest
    obtain rfl : placed = pl' := Except.ok.inj hrest
    refine bind_eq_ok.mpr ⟨placed, hadds.inDefault _ _ _ _ hkernel, ?_⟩
    rw [if_neg (by simpa using hsip)]
    rfl

/-! ## The counters -/

theorem kernelAdd_of_atPath (h : atPath ["Kernel", "Add"] pl = some (.array adds))
    (hne : adds ≠ []) : kernelAdd pl = .ok (.array adds) := by
  obtain ⟨entries, kernel, rfl, hkernel, hpart⟩ := atPath_cons_eq_some.mp h
  obtain ⟨inner, add, rfl, hadd, hvalue⟩ := atPath_cons_eq_some.mp hpart
  obtain rfl : add = .array adds := Option.some.inj hvalue
  have hadds : (Plist.array adds).truthy = true := by simpa [truthy] using hne
  rw [kernelAdd, orDefault_of_truthy (truthy_of_lookup hkernel), Plist.get, ok_bind, hkernel,
    orDefault_of_truthy (truthy_of_lookup hadd), Plist.get, ok_bind, hadd,
    orDefault_of_truthy hadds]
  rfl

/-- The entry of the deploy script has a needle of the trace script. -/
theorem isOcEntry_of_bundlePath (py : PyText)
    (h : e.lookup "BundlePath" = some (.string "MarvellW8897Kext.kext")) :
    isOcEntry py e = true := by
  have hfield : field py e "BundlePath" = "MarvellW8897Kext" ++ ".kext" := by
    rw [field, h]
    exact py.str_string _
  have hneedle : isSubstring "MarvellW8897Kext" (joined py e) = true := by
    refine decide_eq_true ?_
    have hjoined : joined py e = field py e "BundlePath" ++ (" " ++ field py e "ExecutablePath" ++
        " " ++ field py e "PlistPath" ++ " " ++ field py e "Comment") := by
      simp only [← String.append_assoc]
      rfl
    rw [hjoined, hfield, String.append_assoc, String.toList_append]
    exact (List.prefix_append _ _).isInfix
  rw [isOcEntry, hneedle]
  rfl

theorem countEntries_pos {accepts : List (String × Plist) → Bool}
    (h : atPath ["Kernel", "Add"] pl = some (.array adds)) (he : Plist.dict e ∈ adds)
    (haccepts : accepts e = true) : ∃ n, countEntries accepts pl = .ok n ∧ 1 ≤ n := by
  have hcounted : counted accepts (.dict e) = true := haccepts
  refine ⟨_, ?_, List.countP_pos_iff.mpr ⟨_, he, hcounted⟩⟩
  rw [countEntries, kernelAdd_of_atPath h (List.ne_nil_of_mem he)]
  rfl

/-- With the bundle name of the deploy script, both counters count an entry. -/
theorem Updated.counted (h : Updated "MarvellW8897Kext.kext" kextExec enableTestSip pl pl')
    (py : PyText) : (∃ n, countMarvellKernelAddEntries py pl' = .ok n ∧ 1 ≤ n) ∧
      ∃ n, countOcEntries py pl' = .ok n ∧ 1 ≤ n := by
  obtain ⟨adds, adds', -, hnew, hplaced⟩ := h.entries
  obtain ⟨e, he, hbundle⟩ := hplaced.exists_merged
  have hoc := isOcEntry_of_bundlePath py hbundle
  exact ⟨countEntries_pos hnew he (isMarvellEntry_of_isOcEntry hoc), countEntries_pos hnew he hoc⟩

end Scripts

end MarvellW8897
