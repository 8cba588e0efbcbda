import MarvellW8897.Properties.Counters
import MarvellW8897.Scripts.Deploy

/-!
# What a deploy does only after what

Each step of `deploy_oc_test.sh` that cannot be taken back, with what must have gone well before it.

* `Permitted` — the condition for each request, on the answers before it.
* `gated_prepare`, `gated_install`, `gated_finish` — the parts of the script.
* `deploy_gated` — every request of every run is permitted, and what a run that ends well has done.
-/

namespace MarvellW8897

namespace Scripts

namespace Deploy

open Effect

abbrev Past := List DeployEvent

variable {py : PyText} {s : Settings} {past now : Past} {disk : String}
  {efiMount : Shell.Path} {command : Command} {reason : Stop}

/-! ## Milestones -/

def Succeeded (command : Command) (past : Past) : Prop := ⟨.run command, true⟩ ∈ past

/-- The disk that was given, or the one that `diskutil list` led to. -/
def Chosen (py : PyText) (s : Settings) (disk : String) (past : Past) : Prop :=
  disk ≠ "" ∧ (disk = s.efiDisk ∨ s.efiDisk = "" ∧ ∃ pl,
    ⟨.diskutilList, some pl⟩ ∈ past ∧ efiPartition py pl = .ok (some disk))

structure Built (past : Past) : Prop where
  kext : Succeeded .xcodebuild past
  probe : Succeeded .clang past

/-- The chosen disk, after the builds: asked for its mountpoint, it has never had one. -/
structure Detached (py : PyText) (s : Settings) (disk : String) (past : Past) : Prop where
  built : Built past
  chosen : Chosen py s disk past
  noMountPoint : ⟨.mountPoint disk, none⟩ ∈ past
  unmounted : ∀ path, ⟨.mountPoint disk, some path⟩ ∉ past

/-- How the script comes to a mountpoint. -/
def MountedAt (disk : String) (efiMount : Shell.Path) (past : Past) : Prop :=
  ⟨.mountPoint disk, some efiMount⟩ ∈ past ∨
    efiMount = fallbackMount ∧ Succeeded (.mountMsdos disk fallbackMount) past

structure OpenCoreAt (efiMount : Shell.Path) (past : Past) : Prop where
  ocDir : Succeeded (.isDirectory (ocDir efiMount)) past
  config : Succeeded (.isFile (config efiMount)) past

/-- OpenCore, found on a mount of the chosen disk, after the builds. -/
structure Located (py : PyText) (s : Settings) (efiMount : Shell.Path) (past : Past) : Prop where
  built : Built past
  found : ∃ disk, Chosen py s disk past ∧
    InOrder [MountedAt disk efiMount, OpenCoreAt efiMount] past

/-- The copy was compared with what was built. -/
structure Compared (s : Settings) (efiMount : Shell.Path) (past : Past) : Prop where
  keys : ∀ key ∈ comparedKeys, ∃ value,
    ⟨.plistRead (s.kextSrc ++ infoPlist) key, some value⟩ ∈ past ∧
      ⟨.plistRead (kextDst efiMount ++ infoPlist) key, some value⟩ ∈ past
  hashes : ∃ hash, ⟨.sha256 (s.kextSrc ++ executable), some hash⟩ ∈ past ∧
    ⟨.sha256 (kextDst efiMount ++ executable), some hash⟩ ∈ past

/-- The changed config is in order, with `count` entries for the kext. -/
structure Settled (efiMount : Shell.Path) (count : Nat) (past : Past) : Prop where
  linted : Succeeded (.plutilLint (config efiMount)) past
  counted : ⟨.countEntries (config efiMount), some count⟩ ∈ past
  pos : 0 < count

structure Diagnosed (s : Settings) (efiMount : Shell.Path) (past : Past) : Prop where
  mounted : Succeeded (.isMounted efiMount) past
  users : Succeeded .inspectStrictUsers past
  kmFail : s.failOnD = "1" → Succeeded .inspectStrictKmFail past
  traced : Succeeded (.trace efiMount) past

/-- The old kext removed, then the new one copied, then the copy compared. -/
def verifying (s : Settings) (efiMount : Shell.Path) : List (Past → Prop) :=
  [Succeeded (.shell (.removeR (kextDst efiMount))),
    Succeeded (.shell (.copyR s.kextSrc (kextDst efiMount))), Compared s efiMount]

/-- Then the config changed, then looked at. -/
def configuring (s : Settings) (efiMount : Shell.Path) (count : Nat) : List (Past → Prop) :=
  verifying s efiMount ++ [Succeeded (.updateConfig (config efiMount) s.enableTestSip)] ++
    [Settled efiMount count]

/-- What a run that ends well has done, up to the diagnosis. -/
structure Deployed (py : PyText) (s : Settings) (efiMount : Shell.Path) (count : Nat)
    (past : Past) : Prop where
  located : Located py s efiMount past
  steps : InOrder (configuring s efiMount count ++ [Diagnosed s efiMount]) past

section Mono

variable (h : past <+: now)
include h

theorem Succeeded.mono (hc : Succeeded command past) : Succeeded command now := h.subset hc

theorem Chosen.mono (hc : Chosen py s disk past) : Chosen py s disk now :=
  ⟨hc.1, hc.2.imp_right fun ⟨hempty, pl, hpl, hfound⟩ => ⟨hempty, pl, h.subset hpl, hfound⟩⟩

theorem Built.mono (hb : Built past) : Built now := ⟨hb.kext.mono h, hb.probe.mono h⟩

theorem Located.mono (hl : Located py s efiMount past) : Located py s efiMount now where
  built := hl.built.mono h
  found := by
    obtain ⟨disk, hdisk, hfound⟩ := hl.found
    exact ⟨disk, hdisk.mono h, hfound.mono h⟩

/-- Two answers with the same value stay so. -/
theorem same_mono {α : Type} {src dst : α → DeployEvent}
    (hsame : ∃ value, src value ∈ past ∧ dst value ∈ past) :
    ∃ value, src value ∈ now ∧ dst value ∈ now := by
  obtain ⟨value, hsrc, hdst⟩ := hsame
  exact ⟨value, h.subset hsrc, h.subset hdst⟩

theorem Compared.mono (hc : Compared s efiMount past) : Compared s efiMount now where
  keys := fun key hkey => same_mono h (hc.keys key hkey)
  hashes := same_mono h hc.hashes

theorem Deployed.mono {count : Nat} (hd : Deployed py s efiMount count past) :
    Deployed py s efiMount count now := ⟨hd.located.mono h, hd.steps.mono h⟩

end Mono

theorem Located.snoc {e : DeployEvent} (hl : Located py s efiMount past) :
    Located py s efiMount (past ++ [e]) := hl.mono (List.prefix_append past [e])

theorem Succeeded.last : Succeeded command (past ++ [⟨.run command, true⟩]) := by
  simp [Succeeded]

theorem inOrder_run {steps : List (Past → Prop)} (h : InOrder steps past) :
    InOrder (steps ++ [Succeeded command]) (past ++ [⟨.run command, true⟩]) :=
  h.snoc (List.mem_singleton_self _)

/-- A disk stays detached until it is asked for its mountpoint again. -/
theorem Detached.snoc {e : DeployEvent} (hd : Detached py s disk past)
    (he : ∀ path, ⟨.mountPoint disk, some path⟩ ≠ e) : Detached py s disk (past ++ [e]) where
  built := hd.built.mono (List.prefix_append past [e])
  chosen := hd.chosen.mono (List.prefix_append past [e])
  noMountPoint := List.mem_append_left [e] hd.noMountPoint
  unmounted := by
    intro path hpath
    rcases List.mem_append.mp hpath with hpath | hpath
    · exact hd.unmounted path hpath
    · exact he path (List.mem_singleton.mp hpath)

theorem Detached.run {ok : Bool} (hd : Detached py s disk past) :
    Detached py s disk (past ++ [⟨.run command, ok⟩]) := hd.snoc nofun

/-- What must have been answered before a request. -/
def Permitted (py : PyText) (s : Settings) (past : Past) : Op → Prop
  | .run (.gitReset ref) => ref = s.syncRef ∧ ref ≠ "" ∧
      InOrder [Succeeded (.cd s.repo), Succeeded .gitFetch] past
  | .run (.shell (.mkdirP path)) => path = s.buildDir ∨
      path = fallbackMount ∧ (∃ disk, Detached py s disk past) ∨
      ∃ efiMount, path = kexts efiMount ∧ Located py s efiMount past
  | .run (.shell (.removeR path)) => path = s.buildDir ∨
      ∃ efiMount, path = kextDst efiMount ∧ Located py s efiMount past
  | .run (.shell (.copyR source target)) => source = s.kextSrc ∧ ∃ efiMount,
      target = kextDst efiMount ∧ Located py s efiMount past ∧
        Succeeded (.shell (.removeR target)) past
  | .run (.diskutilMount disk) | .run (.unmountForce disk) => Detached py s disk past
  -- only a disk that was told to unmount is repaired, but whether it did is not looked at
  | .run (.fsckMsdos device) => s.autoRepairEfi = "1" ∧ ∃ disk,
      (device = "/dev/r" ++ disk ∨ device = "/dev/" ++ disk) ∧ Detached py s disk past ∧
        ∃ ok, ⟨.run (.unmountForce disk), ok⟩ ∈ past
  | .run (.umount path) => path = fallbackMount ∧ ∃ disk, Detached py s disk past
  | .run (.mountMsdos disk path) => path = fallbackMount ∧ Detached py s disk past
  | .run (.updateConfig cfg enableTestSip) => enableTestSip = s.enableTestSip ∧ ∃ efiMount,
      cfg = config efiMount ∧ Located py s efiMount past ∧ InOrder (verifying s efiMount) past
  | .run (.bless path) => s.doBless = "1" ∧ ∃ count, Deployed py s path count past
  | .run (.diskutilUnmount path) => s.unmountAfter = "1" ∧
      (∃ count, Deployed py s path count past) ∧ (s.doBless = "1" → Succeeded (.bless path) past)
  | _ => True

/-- A request that is permitted at any time. -/
def Free (py : PyText) (s : Settings) (op : Op) : Prop := ∀ past, Permitted py s past op

/-! ## Rules -/

section Rules

variable {α β : Type} {need : Past → Op → Prop} {Q : α → Past → Prop} {R : β → Past → Prop}

theorem gated_check (h : need past (.run command)) :
    Gated need (check command reason) (fun _ now => now = past ++ [⟨.run command, true⟩]) past := by
  refine gated_ask_bind h fun ok => ?_
  cases ok with
  | true => exact gated_pure rfl
  | false => exact gated_stop

theorem gated_run_bind {f : Bool → DeployM β} (h : need past (.run command))
    (hf : ∀ ok, Gated need (f ok) R (past ++ [⟨.run command, ok⟩])) :
    Gated need (run command >>= f) R past := gated_ask_bind h hf

theorem gated_check_bind {f : Unit → DeployM β} (h : need past (.run command))
    (hf : Gated need (f ()) R (past ++ [⟨.run command, true⟩])) :
    Gated need (check command reason >>= f) R past :=
  (gated_check h).bind fun _ _ _ hnow => hnow ▸ hf

/-- A part that is allowed at any time, as a further step. -/
theorem gated_free_bind {p : DeployM α} {f : α → DeployM β}
    (hp : Gated (fun _ => Free py s) p Q []) (hf : ∀ a t, Q a t →
      Gated (Permitted py s) (f a) R (past ++ t)) : Gated (Permitted py s) (p >>= f) R past :=
  (hp.since fun _ hfree => hfree).bind fun a _ _ ⟨t, hnow, hQ⟩ => hnow ▸ hf a t hQ

end Rules

/-! ## The steps 1 to 6 -/

/-- Permitted, and not about a mountpoint. -/
def Early (py : PyText) (s : Settings) (past : Past) (op : Op) : Prop :=
  Permitted py s past op ∧ ∀ disk, op ≠ .mountPoint disk

/-- No disk was asked for its mountpoint. -/
def Unasked (past : Past) : Prop := ∀ disk path, ⟨.mountPoint disk, path⟩ ∉ past

theorem early (h : Permitted py s past (.run command)) : Early py s past (.run command) :=
  ⟨h, nofun⟩

theorem gated_early_bind {α β : Type} {Q : α → Past → Prop} {R : β → Past → Prop} {p : DeployM α}
    {f : α → DeployM β} (hp : Gated (Early py s) p Q past) (hpast : Unasked past)
    (hf : ∀ a now, past <+: now → Q a now → Unasked now → Gated (Permitted py s) (f a) R now) :
    Gated (Permitted py s) (p >>= f) R past := by
  refine (hp.asked fun _ _ => And.left).bind fun a now hnow ⟨hQ, t, ht, hasked⟩ => ?_
  refine hf a now hnow hQ fun disk path hmem => ?_
  rw [ht, List.mem_append] at hmem
  rcases hmem with hmem | hmem
  · exact hpast disk path hmem
  · obtain ⟨before, -, hne⟩ := hasked _ hmem
    exact hne disk rfl

theorem gated_needCmds : Gated (Early py s) needCmds (fun _ _ => True) past := by
  have hloop : Gated (Early py s) needCmds (fun _ _ => ∀ name ∈ _, True) past :=
    gated_forM _ (fun _ _ _ _ h => h) fun _ _ _ _ =>
      Gated.mono (gated_check (early trivial)) fun _ _ _ _ => trivial
  exact hloop.mono fun _ _ _ _ => trivial

theorem gated_checkRepo :
    Gated (Early py s) (checkRepo s) (fun _ now => Succeeded (.cd s.repo) now) past := by
  refine gated_check_bind (early trivial) ?_
  refine gated_check_bind (early trivial) ?_
  refine gated_check_bind (early trivial) ?_
  exact Gated.mono (gated_check (early trivial)) fun _ _ _ hnow => by simp [hnow, Succeeded]

theorem gated_syncRepo (hcd : Succeeded (.cd s.repo) past) :
    Gated (Early py s) (syncRepo s) (fun _ _ => True) past := by
  unfold syncRepo
  split
  · next href =>
    refine gated_check_bind (early trivial) ?_
    have hfetched : InOrder [Succeeded (.cd s.repo), Succeeded .gitFetch]
        (past ++ [⟨.run .gitFetch, true⟩]) := inOrder_run (inOrder_singleton hcd)
    exact Gated.mono (gated_check (early ⟨rfl, by simpa using href, hfetched⟩))
      fun _ _ _ _ => trivial
  · exact gated_pure trivial

theorem gated_chooseDisk :
    Gated (Early py s) (chooseDisk py s) (fun disk now => Chosen py s disk now) past := by
  have hresolve : Gated (Early py s) (resolveEfiDisk py s.efiDisk)
      (fun disk now => disk = s.efiDisk ∨ s.efiDisk = "" ∧ ∃ pl,
        ⟨.diskutilList, some pl⟩ ∈ now ∧ efiPartition py pl = .ok (some disk)) past := by
    unfold resolveEfiDisk
    split
    · exact gated_pure (Or.inl rfl)
    · next hempty =>
      refine gated_ask_bind ⟨trivial, nofun⟩ fun listed => ?_
      cases listed with
      | none => exact gated_stop
      | some pl =>
        dsimp only
        split
        · next disk hfound =>
          exact gated_pure (Or.inr ⟨by simpa using hempty, pl, by simp, hfound⟩)
        · exact gated_stop
  refine hresolve.bind fun disk now _ hdisk => ?_
  split
  · exact gated_stop
  · next hne => exact gated_pure ⟨by simpa using hne, hdisk⟩

theorem gated_buildKext :
    Gated (Early py s) (buildKext s) (fun _ now => Succeeded .xcodebuild now) past := by
  have hbuild : ∀ {past}, Gated (Early py s) (runBuild s)
      (fun _ now => Succeeded .xcodebuild now) past :=
    gated_check_bind (early (Or.inl rfl))
      (Gated.mono (gated_check (early trivial)) fun _ _ _ hnow => hnow ▸ Succeeded.last)
  refine gated_check_bind (early (Or.inl rfl)) ?_
  refine gated_check_bind (early (Or.inl rfl)) ?_
  refine hbuild.bind fun _ _ _ hkext => ?_
  exact Gated.mono (gated_check (early trivial)) fun _ _ hnow _ => hkext.mono hnow

theorem gated_buildProbe :
    Gated (Early py s) (buildProbe s) (fun _ now => Succeeded .clang now) past := by
  refine gated_check_bind (early trivial) ?_
  refine gated_check_bind (early trivial) ?_
  exact Gated.mono (gated_check (early trivial)) fun _ _ hnow _ => Succeeded.last.mono hnow

/-! ## The step 7 -/

theorem gated_mountFallback {rawDev : String} (hd : Detached py s disk past)
    (hdev : rawDev = "/dev/r" ++ disk ∨ rawDev = "/dev/" ++ disk) :
    Gated (Permitted py s) (mountFallback s disk rawDev)
      (fun efiMount now => MountedAt disk efiMount now) past := by
  have hmount : ∀ {now}, Detached py s disk now → Gated (Permitted py s) (do
      let _ ← run (.umount fallbackMount)
      check (.mountMsdos disk fallbackMount) .mountFailed
      check (.isDirectory fallbackMount) .fallbackMountMissing
      return fallbackMount) (fun efiMount now => MountedAt disk efiMount now) now := by
    intro now hd
    refine gated_run_bind ⟨rfl, disk, hd⟩ fun _ => ?_
    refine gated_check_bind ⟨rfl, hd.run⟩ ?_
    refine gated_check_bind trivial ?_
    exact gated_pure (Or.inr ⟨rfl, by simp [Succeeded]⟩)
  refine gated_run_bind hd fun ok => ?_
  split
  · next hrepair =>
    refine gated_run_bind ⟨by simpa using hrepair, disk, hdev, hd.run, ok, by simp⟩ fun _ => ?_
    refine gated_check_bind (Or.inr (Or.inl ⟨rfl, disk, hd.run.run⟩)) ?_
    exact hmount hd.run.run.run
  · refine gated_run_bind (Or.inr (Or.inl ⟨rfl, disk, hd.run⟩)) fun _ => ?_
    exact hmount hd.run.run

theorem gated_mountEfi (hb : Built past) (hc : Chosen py s disk past) (hpast : Unasked past) :
    Gated (Permitted py s) (mountEfi s disk)
      (fun efiMount now => MountedAt disk efiMount now) past := by
  refine gated_run_bind trivial fun raw => ?_
  have hdev : (if raw then "/dev/r" ++ disk else "/dev/" ++ disk) = "/dev/r" ++ disk ∨
      (if raw then "/dev/r" ++ disk else "/dev/" ++ disk) = "/dev/" ++ disk := by
    cases raw <;> simp
  refine gated_ask_bind trivial fun resolved => ?_
  cases resolved with
  | some efiMount => exact gated_pure (Or.inl (by simp))
  | none =>
    have hd : Detached py s disk (past ++ [⟨.run (.isDevice ("/dev/r" ++ disk)), raw⟩] ++
        [⟨.mountPoint disk, none⟩]) := by
      rw [List.append_assoc]
      refine ⟨hb.mono (List.prefix_append _ _), hc.mono (List.prefix_append _ _), by simp, ?_⟩
      intro path hpath
      rcases List.mem_append.mp hpath with hpath | hpath
      · exact hpast disk (some path) hpath
      · obtain _ | ⟨_, _ | ⟨_, hpath⟩⟩ := hpath
        cases hpath
    refine gated_run_bind hd fun ok => ?_
    cases ok with
    | false => exact gated_mountFallback hd.run hdev
    | true =>
      refine gated_ask_bind trivial fun resolved => ?_
      cases resolved with
      | some efiMount => exact gated_pure (Or.inl (by simp))
      | none => exact gated_mountFallback (hd.run.snoc nofun) hdev

theorem gated_checkMount : Gated (fun _ => Free py s) (checkMount efiMount)
    (fun _ now => OpenCoreAt efiMount now) past := by
  refine gated_check_bind (fun _ => trivial) ?_
  refine gated_check_bind (fun _ => trivial) ?_
  refine Gated.mono (gated_check fun _ => trivial) fun _ _ _ hnow => ?_
  exact ⟨by simp [hnow, Succeeded], by simp [hnow, Succeeded]⟩

theorem gated_prepare (hpast : Unasked past) : Gated (Permitted py s) (prepare py s)
    (fun efiMount now => Located py s efiMount now) past := by
  refine gated_early_bind gated_needCmds hpast fun _ _ _ _ hpast => ?_
  refine gated_early_bind gated_checkRepo hpast fun _ _ _ hcd hpast => ?_
  refine gated_early_bind (gated_syncRepo hcd) hpast fun _ _ _ _ hpast => ?_
  refine gated_early_bind gated_chooseDisk hpast fun disk _ _ hc hpast => ?_
  refine gated_early_bind gated_buildKext hpast fun _ _ hnow hkext hpast => ?_
  have hc := hc.mono hnow
  refine gated_early_bind gated_buildProbe hpast fun _ now hnow hprobe hpast => ?_
  have hc := hc.mono hnow
  have hb : Built now := ⟨hkext.mono hnow, hprobe⟩
  refine (gated_mountEfi hb hc hpast).bind fun efiMount now hnow hmounted => ?_
  refine gated_free_bind gated_checkMount fun _ t hoc => ?_
  have hlater := hnow.trans (List.prefix_append now t)
  exact gated_pure ⟨hb.mono hlater, disk, hc.mono hlater, (inOrder_singleton hmounted).snoc hoc⟩

/-! ## The steps 8 and 9 -/

theorem gated_compareKey {srcPlist dstPlist : Shell.Path} (key : String) :
    Gated (fun _ => Free py s) (compareKey srcPlist dstPlist key) (fun _ now => ∃ value,
      ⟨.plistRead srcPlist key, some value⟩ ∈ now ∧ ⟨.plistRead dstPlist key, some value⟩ ∈ now)
      past := by
  refine gated_ask_bind (fun _ => trivial) fun srcValue => ?_
  cases srcValue with
  | none => exact gated_stop
  | some srcValue =>
    refine gated_ask_bind (fun _ => trivial) fun dstValue => ?_
    cases dstValue with
    | none => exact gated_stop
    | some dstValue =>
      dsimp only
      split
      · exact gated_stop
      · next hne =>
        obtain rfl : srcValue = dstValue := by simpa using hne
        exact gated_pure ⟨srcValue, by simp, by simp⟩

theorem gated_compareHashes {srcExec dstExec : Shell.Path} :
    Gated (fun _ => Free py s) (compareHashes srcExec dstExec) (fun _ now => ∃ hash,
      ⟨.sha256 srcExec, some hash⟩ ∈ now ∧ ⟨.sha256 dstExec, some hash⟩ ∈ now) past := by
  refine gated_ask_bind (fun _ => trivial) fun srcHash => ?_
  cases srcHash with
  | none => exact gated_stop
  | some srcHash =>
    refine gated_ask_bind (fun _ => trivial) fun dstHash => ?_
    cases dstHash with
    | none => exact gated_stop
    | some dstHash =>
      dsimp only
      split
      · exact gated_stop
      · next hne =>
        obtain rfl : srcHash = dstHash := by simpa using hne
        exact gated_pure ⟨srcHash, by simp, by simp⟩

theorem gated_verifyDeployCopy :
    Gated (fun _ => Free py s) (verifyDeployCopy s.kextSrc (kextDst efiMount))
      (fun _ now => Compared s efiMount now) past := by
  refine gated_check_bind (fun _ => trivial) ?_
  refine gated_check_bind (fun _ => trivial) ?_
  refine gated_check_bind (fun _ => trivial) ?_
  refine gated_check_bind (fun _ => trivial) ?_
  refine Gated.bind (gated_forM comparedKeys ?_ fun key _ _ _ => gated_compareKey key)
    fun _ _ _ hkeys => ?_
  · exact fun _ _ _ hnow hkey => same_mono hnow hkey
  refine Gated.bind gated_compareHashes fun _ now hnow hhashes => ?_
  have hcompared : Compared s efiMount now :=
    ⟨fun key hkey => same_mono hnow (hkeys key hkey), hhashes⟩
  refine gated_check_bind (fun _ => trivial) ?_
  exact Gated.mono (gated_check fun _ => trivial) fun _ _ hlater _ =>
    hcompared.mono ((List.prefix_append now _).trans hlater)

theorem gated_copyKext (hl : Located py s efiMount past) : Gated (Permitted py s)
    (copyKext s efiMount) (fun _ now => InOrder (verifying s efiMount) now) past := by
  refine gated_check_bind (Or.inr (Or.inr ⟨efiMount, rfl, hl⟩)) ?_
  refine gated_check_bind (Or.inr ⟨efiMount, rfl, hl.snoc⟩) ?_
  refine gated_check_bind ⟨rfl, efiMount, rfl, hl.snoc.snoc, Succeeded.last⟩ ?_
  refine gated_check_bind trivial ?_
  refine (gated_verifyDeployCopy.since fun _ hfree => hfree).mono ?_
  rintro _ _ - ⟨t, rfl, hcompared⟩
  change InOrder ([Succeeded _] ++ [Succeeded _] ++ [Compared s efiMount]) _
  exact ((inOrder_run (inOrder_singleton Succeeded.last)).append_right _).snoc hcompared

theorem gated_changeConfig (hl : Located py s efiMount past)
    (hv : InOrder (verifying s efiMount) past) : Gated (Permitted py s) (changeConfig s efiMount)
      (fun count now => InOrder (configuring s efiMount count) now) past := by
  have hsettle : Gated (fun _ => Free py s) (do
      check (.plutilLint (config efiMount)) .lintFailed
      check (.isFile (kextDst efiMount ++ infoPlist))
        (.deployedPlistMissing (kextDst efiMount ++ infoPlist))
      countMarvell (config efiMount)) (fun count now => Settled efiMount count now) [] := by
    refine gated_check_bind (fun _ => trivial) ?_
    refine gated_check_bind (fun _ => trivial) ?_
    refine gated_ask_bind (fun _ => trivial) fun count => ?_
    cases count with
    | none => exact gated_stop
    | some count =>
      dsimp only
      split
      · exact gated_stop
      · next hpos => exact gated_pure ⟨by simp [Succeeded], by simp, Nat.lt_of_not_le hpos⟩
  refine gated_check_bind ⟨rfl, efiMount, rfl, hl, hv⟩ ?_
  refine (hsettle.since fun _ hfree => hfree).mono ?_
  rintro count _ - ⟨t, rfl, hsettled⟩
  exact (inOrder_run hv).snoc hsettled

theorem gated_install (hl : Located py s efiMount past) : Gated (Permitted py s)
    (install s efiMount) (fun count now => InOrder (configuring s efiMount count) now) past := by
  refine (gated_copyKext hl).bind fun _ _ hnow hv => ?_
  exact gated_changeConfig (hl.mono hnow) hv

/-! ## The steps 10 and 11 -/

theorem gated_diagnose : Gated (fun _ => Free py s) (diagnose s efiMount)
    (fun _ now => Diagnosed s efiMount now) past := by
  refine gated_check_bind (fun _ => trivial) ?_
  refine gated_check_bind (fun _ => trivial) ?_
  unfold must
  split
  · refine gated_check_bind (fun _ => trivial) ?_
    refine Gated.mono (gated_check fun _ => trivial) fun _ _ _ hnow => ?_
    rw [hnow]
    exact ⟨by simp [Succeeded], by simp [Succeeded], fun _ => by simp [Succeeded], Succeeded.last⟩
  · next hoff =>
    refine Gated.mono (gated_check fun _ => trivial) fun _ _ _ hnow => ?_
    rw [hnow]
    exact ⟨by simp [Succeeded], by simp [Succeeded],
      fun hfail => absurd (by simpa using hfail) hoff, Succeeded.last⟩

theorem gated_blessEfi {count : Nat} (hd : Deployed py s efiMount count past) :
    Gated (Permitted py s) (blessEfi s efiMount)
      (fun _ now => s.doBless = "1" → Succeeded (.bless efiMount) now) past := by
  unfold blessEfi
  split
  · next hbless =>
    have hpermitted : Permitted py s past (.run (.bless efiMount)) :=
      ⟨by simpa using hbless, count, hd⟩
    exact Gated.mono (gated_check hpermitted) fun _ _ _ hnow _ => hnow ▸ Succeeded.last
  · next hoff => exact gated_pure fun h => absurd (by simpa using h) hoff

theorem gated_unmountEfi {count : Nat} (hd : Deployed py s efiMount count past)
    (hblessed : s.doBless = "1" → Succeeded (.bless efiMount) past) :
    Gated (Permitted py s) (unmountEfi s efiMount) (fun _ _ => True) past := by
  unfold unmountEfi
  split
  · next hafter =>
    refine gated_run_bind ⟨by simpa using hafter, ⟨count, hd⟩, hblessed⟩ fun _ => ?_
    exact gated_pure trivial
  · exact gated_pure trivial

theorem gated_finish {count : Nat} (hl : Located py s efiMount past)
    (hc : InOrder (configuring s efiMount count) past) : Gated (Permitted py s)
      (finish s efiMount) (fun _ now => Deployed py s efiMount count now ∧
        (s.doBless = "1" → Succeeded (.bless efiMount) now)) past := by
  refine gated_free_bind gated_diagnose fun _ t hdiagnosed => ?_
  have hd : Deployed py s efiMount count (past ++ t) :=
    ⟨hl.mono (List.prefix_append past t), hc.snoc hdiagnosed⟩
  refine (gated_blessEfi hd).bind fun _ _ h₁ hblessed => ?_
  have hd := hd.mono h₁
  refine (gated_unmountEfi hd hblessed).mono fun _ _ h₂ _ => ?_
  exact ⟨hd.mono h₂, fun h => (hblessed h).mono h₂⟩

/--
In every run, each request comes only after what it needs has gone well. A run that ends well has
done all of it on one mountpoint of the chosen disk, from the removal of the old kext on in order.
-/
theorem deploy_gated {t : List DeployEvent} {r : Except Stop (Shell.Path × Nat)}
    (h : Runs (deploy py s).run t r) :
    Always (fun past e => Permitted py s past e.op) [] t ∧
      ∀ efiMount count, r = .ok (efiMount, count) → Deployed py s efiMount count t ∧
        (s.doBless = "1" → Succeeded (.bless efiMount) t) := by
  have hgated : Gated (Permitted py s) (deploy py s) (fun result now =>
      Deployed py s result.1 result.2 now ∧
        (s.doBless = "1" → Succeeded (.bless result.1) now)) [] := by
    refine (gated_prepare (by simp [Unasked])).bind fun efiMount _ _ hl => ?_
    refine (gated_install hl).bind fun count _ hnow hc => ?_
    refine (gated_finish (hl.mono hnow) hc).bind fun _ _ _ hd => ?_
    exact gated_pure hd
  obtain ⟨halways, hpost⟩ := hgated t r h
  exact ⟨halways, fun efiMount count hr => hpost _ hr⟩

/-- Every command succeeds, no disk has a mountpoint, and one entry is counted. -/
def smooth (_ : List DeployEvent) : (op : Op) → op.Resp
  | .run _ => true
  | .diskutilList | .mountPoint _ => none
  | .plistRead _ _ => some "1"
  | .sha256 _ => some "0"
  | .countEntries _ => some 1

def blessingSettings : Settings where
  efiDisk := "disk0s1"
  repo := ["src", "MarvellW8897"]
  syncRef := "origin/main"
  enableTestSip := "0"
  doBless := "1"
  autoRepairEfi := "1"
  quietBuild := "1"
  unmountAfter := "0"
  failOnD := "0"

theorem deploy_gated_smooth :
    let t := ((deploy asciiText blessingSettings).run.exec smooth []).1
    Always (fun past e => Permitted asciiText blessingSettings past e.op) [] t ∧
      Deployed asciiText blessingSettings fallbackMount 1 t ∧
      Succeeded (.bless fallbackMount) t := by
  intro t
  have hrun : Runs (deploy asciiText blessingSettings).run t (.ok (fallbackMount, 1)) :=
    Program.runs_exec smooth [] _
  obtain ⟨halways, hpost⟩ := deploy_gated hrun
  obtain ⟨hd, hblessed⟩ := hpost fallbackMount 1 rfl
  exact ⟨halways, hd, hblessed rfl⟩

end Deploy

end Scripts

end MarvellW8897
