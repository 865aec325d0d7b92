import FakeLibc.Lib.Designated

namespace FakeLibc.Sysconf

open FakeLibc.Lib.Designated

inductive BionicName
  | scArgMax | scBcBaseMax | scBcDimMax | scBcScaleMax | scBcStringMax | scChildMax | scClkTck
  | scCollWeightsMax | scExprNestMax | scLineMax | scNgroupsMax | scOpenMax | scPassMax | sc2CBind
  | sc2CDev | sc2CVersion | sc2CharTerm | sc2FortDev | sc2FortRun | sc2Localedef | sc2SwDev
  | sc2Upe | sc2Version | scJobControl | scSavedIds | scVersion | scReDupMax | scStreamMax
  | scTznameMax | scXopenCrypt | scXopenEnhI18n | scXopenShm | scXopenVersion | scXopenXcuVersion
  | scXopenRealtime | scXopenRealtimeThreads | scXopenLegacy | scAtexitMax | scIovMax | scPagesize
  | scPageSize | scXopenUnix | scXbs5Ilp32Off32 | scXbs5Ilp32Offbig | scXbs5Lp64Off64
  | scXbs5LpbigOffbig | scAioListioMax | scAioMax | scAioPrioDeltaMax | scDelaytimerMax
  | scMqOpenMax | scMqPrioMax | scRtsigMax | scSemNsemsMax | scSemValueMax | scSigqueueMax
  | scTimerMax | scAsynchronousIo | scFsync | scMappedFiles | scMemlock | scMemlockRange
  | scMemoryProtection | scMessagePassing | scPrioritizedIo | scPriorityScheduling
  | scRealtimeSignals | scSemaphores | scSharedMemoryObjects | scSynchronizedIo | scTimers
  | scGetgrRSizeMax | scGetpwRSizeMax | scLoginNameMax | scThreadDestructorIterations
  | scThreadKeysMax | scThreadStackMin | scThreadThreadsMax | scTtyNameMax | scThreads
  | scThreadAttrStackaddr | scThreadAttrStacksize | scThreadPriorityScheduling
  | scThreadPrioInherit | scThreadPrioProtect | scThreadSafeFunctions | scNprocessorsConf
  | scNprocessorsOnln | scPhysPages | scAvphysPages
deriving DecidableEq

def BionicName.index : BionicName → Nat
  | .scArgMax => 0x0000
  | .scBcBaseMax => 0x0001
  | .scBcDimMax => 0x0002
  | .scBcScaleMax => 0x0003
  | .scBcStringMax => 0x0004
  | .scChildMax => 0x0005
  | .scClkTck => 0x0006
  | .scCollWeightsMax => 0x0007
  | .scExprNestMax => 0x0008
  | .scLineMax => 0x0009
  | .scNgroupsMax => 0x000a
  | .scOpenMax => 0x000b
  | .scPassMax => 0x000c
  | .sc2CBind => 0x000d
  | .sc2CDev => 0x000e
  | .sc2CVersion => 0x000f
  | .sc2CharTerm => 0x0010
  | .sc2FortDev => 0x0011
  | .sc2FortRun => 0x0012
  | .sc2Localedef => 0x0013
  | .sc2SwDev => 0x0014
  | .sc2Upe => 0x0015
  | .sc2Version => 0x0016
  | .scJobControl => 0x0017
  | .scSavedIds => 0x0018
  | .scVersion => 0x0019
  | .scReDupMax => 0x001a
  | .scStreamMax => 0x001b
  | .scTznameMax => 0x001c
  | .scXopenCrypt => 0x001d
  | .scXopenEnhI18n => 0x001e
  | .scXopenShm => 0x001f
  | .scXopenVersion => 0x0020
  | .scXopenXcuVersion => 0x0021
  | .scXopenRealtime => 0x0022
  | .scXopenRealtimeThreads => 0x0023
  | .scXopenLegacy => 0x0024
  | .scAtexitMax => 0x0025
  | .scIovMax => 0x0026
  | .scPagesize => 0x0027
  | .scPageSize => 0x0028
  | .scXopenUnix => 0x0029
  | .scXbs5Ilp32Off32 => 0x002a
  | .scXbs5Ilp32Offbig => 0x002b
  | .scXbs5Lp64Off64 => 0x002c
  | .scXbs5LpbigOffbig => 0x002d
  | .scAioListioMax => 0x002e
  | .scAioMax => 0x002f
  | .scAioPrioDeltaMax => 0x0030
  | .scDelaytimerMax => 0x0031
  | .scMqOpenMax => 0x0032
  | .scMqPrioMax => 0x0033
  | .scRtsigMax => 0x0034
  | .scSemNsemsMax => 0x0035
  | .scSemValueMax => 0x0036
  | .scSigqueueMax => 0x0037
  | .scTimerMax => 0x0038
  | .scAsynchronousIo => 0x0039
  | .scFsync => 0x003a
  | .scMappedFiles => 0x003b
  | .scMemlock => 0x003c
  | .scMemlockRange => 0x003d
  | .scMemoryProtection => 0x003e
  | .scMessagePassing => 0x003f
  | .scPrioritizedIo => 0x0040
  | .scPriorityScheduling => 0x0041
  | .scRealtimeSignals => 0x0042
  | .scSemaphores => 0x0043
  | .scSharedMemoryObjects => 0x0044
  | .scSynchronizedIo => 0x0045
  | .scTimers => 0x0046
  | .scGetgrRSizeMax => 0x0047
  | .scGetpwRSizeMax => 0x0048
  | .scLoginNameMax => 0x0049
  | .scThreadDestructorIterations => 0x004a
  | .scThreadKeysMax => 0x004b
  | .scThreadStackMin => 0x004c
  | .scThreadThreadsMax => 0x004d
  | .scTtyNameMax => 0x004e
  | .scThreads => 0x004f
  | .scThreadAttrStackaddr => 0x0050
  | .scThreadAttrStacksize => 0x0051
  | .scThreadPriorityScheduling => 0x0052
  | .scThreadPrioInherit => 0x0053
  | .scThreadPrioProtect => 0x0054
  | .scThreadSafeFunctions => 0x0055
  | .scNprocessorsConf => 0x0060
  | .scNprocessorsOnln => 0x0061
  | .scPhysPages => 0x0062
  | .scAvphysPages => 0x0063

def BionicName.all : List BionicName :=
  [.scArgMax, .scBcBaseMax, .scBcDimMax, .scBcScaleMax, .scBcStringMax, .scChildMax, .scClkTck,
   .scCollWeightsMax, .scExprNestMax, .scLineMax, .scNgroupsMax, .scOpenMax, .scPassMax,
   .sc2CBind, .sc2CDev, .sc2CVersion, .sc2CharTerm, .sc2FortDev, .sc2FortRun, .sc2Localedef,
   .sc2SwDev, .sc2Upe, .sc2Version, .scJobControl, .scSavedIds, .scVersion, .scReDupMax,
   .scStreamMax, .scTznameMax, .scXopenCrypt, .scXopenEnhI18n, .scXopenShm, .scXopenVersion,
   .scXopenXcuVersion, .scXopenRealtime, .scXopenRealtimeThreads, .scXopenLegacy, .scAtexitMax,
   .scIovMax, .scPagesize, .scPageSize, .scXopenUnix, .scXbs5Ilp32Off32, .scXbs5Ilp32Offbig,
   .scXbs5Lp64Off64, .scXbs5LpbigOffbig, .scAioListioMax, .scAioMax, .scAioPrioDeltaMax,
   .scDelaytimerMax, .scMqOpenMax, .scMqPrioMax, .scRtsigMax, .scSemNsemsMax, .scSemValueMax,
   .scSigqueueMax, .scTimerMax, .scAsynchronousIo, .scFsync, .scMappedFiles, .scMemlock,
   .scMemlockRange, .scMemoryProtection, .scMessagePassing, .scPrioritizedIo,
   .scPriorityScheduling, .scRealtimeSignals, .scSemaphores, .scSharedMemoryObjects,
   .scSynchronizedIo, .scTimers, .scGetgrRSizeMax, .scGetpwRSizeMax, .scLoginNameMax,
   .scThreadDestructorIterations, .scThreadKeysMax, .scThreadStackMin, .scThreadThreadsMax,
   .scTtyNameMax, .scThreads, .scThreadAttrStackaddr, .scThreadAttrStacksize,
   .scThreadPriorityScheduling, .scThreadPrioInherit, .scThreadPrioProtect,
   .scThreadSafeFunctions, .scNprocessorsConf, .scNprocessorsOnln, .scPhysPages, .scAvphysPages]

/-- The constants that `unistd.h` defines at compile time, for the names with an
underscore. -/
abbrev Unistd := BionicName → Option Int

/-- The initialisers that are compiled in. -/
def mapToUnistd (unistd : Unistd) : List (Nat × Int) :=
  BionicName.all.filterMap (fun n => (unistd n).map (fun v => (n.index, v)))

def sysconfMap (unistd : Unistd) : List Int := initialise 0 (mapToUnistd unistd)

/-- The element that an index selects. There is none outside of the table. -/
def asked (unistd : Unistd) (name : BitVec 32) : Option Int :=
  if 0 ≤ name.toInt then (sysconfMap unistd)[name.toInt.toNat]? else none

def sysconf (unistd : Unistd) (glibc : Int → Int) (name : BitVec 32) : Option Int :=
  (asked unistd name).map glibc

/-- The name has an entry, with this constant. -/
def Entry (unistd : Unistd) (name : BitVec 32) (v : Int) : Prop :=
  ∃ n, name.toInt = BionicName.index n ∧ unistd n = some v

structure Translates (unistd : Unistd) (name : BitVec 32) : Prop where
  within : 0 ≤ name.toInt ∧ name.toInt < (sysconfMap unistd).length
  entry : ∀ v, Entry unistd name v → ∀ glibc, sysconf unistd glibc name = some (glibc v)
  reject : (∀ v, ¬ Entry unistd name v) → ∀ v, asked unistd name = some v →
    v ≠ 0 ∧ ∀ n, unistd n ≠ some v

theorem mem_all (n : BionicName) : n ∈ BionicName.all := by
  apply List.mem_of_getElem? (i := n.ctorIdx)
  cases n <;> rfl

theorem index_lt_index : (BionicName.all.map BionicName.index).Pairwise (· < ·) := by
  apply List.isChain_iff_pairwise.mp
  decide +kernel

theorem index_hole (n : BionicName) : n.index ≤ 0x55 ∨ 0x60 ≤ n.index := by
  cases n <;> decide

section Table

variable {unistd : Unistd}

theorem mem_mapToUnistd {i : Nat} {v : Int} :
    (i, v) ∈ mapToUnistd unistd ↔ ∃ n, n.index = i ∧ unistd n = some v := by
  rw [mapToUnistd, List.mem_filterMap]
  constructor
  · rintro ⟨n, _, hn⟩
    obtain ⟨w, hw, he⟩ := Option.map_eq_some_iff.mp hn
    obtain ⟨rfl, rfl⟩ := Prod.mk.inj he
    exact ⟨n, rfl, hw⟩
  · rintro ⟨n, rfl, hv⟩
    exact ⟨n, mem_all n, by rw [hv, Option.map_some]⟩

theorem nodup_mapToUnistd (unistd : Unistd) : ((mapToUnistd unistd).map Prod.fst).Nodup := by
  have hlt : (mapToUnistd unistd).Pairwise (fun init init' => init.1 < init'.1) := by
    apply List.pairwise_filterMap.mpr
    apply (List.pairwise_map.mp index_lt_index).imp
    intro n m hnm init hn init' hm
    obtain ⟨_, _, rfl⟩ := Option.map_eq_some_iff.mp hn
    obtain ⟨_, _, rfl⟩ := Option.map_eq_some_iff.mp hm
    exact hnm
  exact List.pairwise_map.mpr (hlt.imp Nat.ne_of_lt)

theorem asked_of_entry {name : BitVec 32} {v : Int} (h : Entry unistd name v) :
    asked unistd name = some v := by
  obtain ⟨n, hn, hv⟩ := h
  rw [asked, hn, if_pos (Int.natCast_nonneg _), Int.toNat_natCast]
  exact getElem?_initialise_of_mem (nodup_mapToUnistd unistd) (mem_mapToUnistd.mpr ⟨n, rfl, hv⟩)

theorem asked_of_no_entry {name : BitVec 32} {v : Int} (h : ∀ v, ¬ Entry unistd name v)
    (hv : asked unistd name = some v) : v = 0 := by
  rw [asked, Option.ite_none_right_eq_some] at hv
  obtain ⟨hpos, hv⟩ := hv
  refine getElem?_initialise_of_notMem (fun hmem => ?_) hv
  obtain ⟨⟨i, w⟩, hinit, hi⟩ := List.mem_map.mp hmem
  obtain ⟨n, hn, hw⟩ := mem_mapToUnistd.mp hinit
  have hi : i = name.toInt.toNat := hi
  refine h w ⟨n, ?_, hw⟩
  rw [hn, hi, Int.toNat_of_nonneg hpos]

theorem asked_of_within {name : BitVec 32}
    (h : 0 ≤ name.toInt ∧ name.toInt < (sysconfMap unistd).length) :
    ∃ v, asked unistd name = some v := by
  rw [asked, if_pos h.1]
  exact ⟨_, List.getElem?_eq_getElem ((Int.toNat_lt h.1).mpr h.2)⟩

theorem within_of_asked {name : BitVec 32} {v : Int} (h : asked unistd name = some v) :
    0 ≤ name.toInt ∧ name.toInt < (sysconfMap unistd).length := by
  rw [asked, Option.ite_none_right_eq_some] at h
  obtain ⟨hpos, h⟩ := h
  obtain ⟨hlt, _⟩ := List.getElem?_eq_some_iff.mp h
  exact ⟨hpos, (Int.toNat_lt hpos).mp hlt⟩

theorem entry_of_translates {name : BitVec 32} (h : Translates unistd name) :
    ∃ v, Entry unistd name v := by
  by_contra hno
  have hno := not_exists.mp hno
  obtain ⟨v, hv⟩ := asked_of_within h.within
  exact (h.reject hno v hv).1 (asked_of_no_entry hno hv)

end Table

/-- A name is translated or rejected precisely when it has an entry. -/
theorem translates_iff_entry (unistd : Unistd) (name : BitVec 32) :
    Translates unistd name ↔ ∃ v, Entry unistd name v := by
  constructor
  · exact entry_of_translates
  · rintro ⟨v, hv⟩
    refine ⟨within_of_asked (asked_of_entry hv), fun w hw glibc => ?_, fun hno => ?_⟩
    · rw [sysconf, asked_of_entry hw, Option.map_some]
    · exact absurd hv (hno v)

/-- With every entry compiled in, a hole asks for the constant 0, and a negative
name reads before the table. -/
theorem not_translates_hole_negative :
    ¬ Translates (fun n => some n.index) 0x56 ∧ ¬ Translates (fun n => some n.index) (-1) := by
  constructor
  · intro h
    obtain ⟨_, n, hn, _⟩ := entry_of_translates h
    have hn : (0x56 : Int) = n.index := hn
    have hhole := index_hole n
    omega
  · intro h
    exact absurd h.within.1 (by decide)

end FakeLibc.Sysconf
