/-
# `PsvEmmc.Driver.Lifetime` — the module from `module_start` to `module_stop`

`driver/psvemmc.c` without `ENABLE_REVERSING` and `ENABLE_NETWORK`, as
`defines.h` has it: `module_start` creates three mutexes and finds the contexts
of the devices, the exported functions follow, and `module_stop` frees the
cluster pool and deletes the mutexes.

The contexts are looked for once, so what a device answers is settled for the
whole life.  The pool's block is kept in one variable.  An initialization that
gets a block and not its base leaves the flag clear, so nothing frees that
block: the next initialization overwrites its uid, and `module_stop` goes by the
flag.  It does not look at what it gets from `psvemmcDeinitialize` either, and
deletes the mutexes whether they were made or not (`driver_unload`).
-/
import PsvEmmc.Driver.PoolSize
import PsvEmmc.Lib.Ledger

namespace PsvEmmc

open Memory Runs Ledger
open scoped List

/-! ## The functions -/

inductive DriverResource where
  | mutex (id : Int32)
  | block (uid : Int32)
  deriving DecidableEq

/-- What a call that initializes a context answers, and the context. -/
structure ContextAnswer where
  code : Int32
  ctx : UInt32

/-- What is answered to `module_start`. -/
structure LoadAnswers where
  threadInfoMutex : Int32
  globalLogMutex : Int32
  sdstorLogMutex : Int32
  /-- `ksceSdifGetSdContextPartMmc(SCE_SDIF_DEV_EMMC)`. -/
  getEmmc : UInt32
  initializeEmmc : ContextAnswer
  /-- `dev_type_idx` of the game card's global context. -/
  gcDevType : UInt32
  getGcMmc : UInt32
  initializeGcMmc : ContextAnswer
  getGcSd : UInt32

/-- The globals of the module, and what was acquired and released. -/
structure ModuleSt where
  gThreadInfoMutex : Int32 := -1
  gGlobalLogMutex : Int32 := -1
  gSdstorLogMutex : Int32 := -1
  gEmmcCtx : UInt32 := 0
  gGcCtx : UInt32 := 0
  driver : Driver := {}
  books : List (Entry DriverResource) := []

/-- The common part of `initialize_emmc_globals` and `initialize_gc_mmc_device`: the code, the
context, and whether there is one. -/
def initializeMmc (get : UInt32) (k : ContextAnswer) : Int32 × UInt32 × Bool :=
  if get = 0 then if k.code < 0 then (-1, k.ctx, false) else (0, k.ctx, true)
  else (0, get, true)

/-- What a call that creates a mutex acquires. -/
def createsMutex (id : Int32) : List (Entry DriverResource) := grantedIf (0 ≤ id) (.mutex id)

/-- The mutex that a call has created. -/
def createdMutex (id : Int32) : List DriverResource := heldIf (0 ≤ id) (.mutex id)

theorem leads_createsMutex {live : List DriverResource} (id : Int32) :
    Leads live (createsMutex id) (createdMutex id ++ live) :=
  leads_grantedIf _ _

namespace ModuleSt

def initThreadInfoMutex (id : Int32) (m : ModuleSt) : ModuleSt :=
  { m with gThreadInfoMutex := id, books := m.books ++ createsMutex id }

def initGlobalLog (id : Int32) (m : ModuleSt) : ModuleSt :=
  { m with gGlobalLogMutex := id, books := m.books ++ createsMutex id }

def initSdstorLog (id : Int32) (m : ModuleSt) : ModuleSt :=
  { m with gSdstorLogMutex := id, books := m.books ++ createsMutex id }

def initializeEmmcGlobals (k : LoadAnswers) (m : ModuleSt) : Int32 × ModuleSt :=
  let (res, ctx, initialized) := initializeMmc k.getEmmc k.initializeEmmc
  (res, { m with gEmmcCtx := ctx, driver := { m.driver with gEmmcCtxInitialized := initialized } })

def initializeGcMmcDevice (k : LoadAnswers) (m : ModuleSt) : Int32 × ModuleSt :=
  let (res, ctx, initialized) := initializeMmc k.getGcMmc k.initializeGcMmc
  (res, { m with gGcCtx := ctx, driver := { m.driver with gGcCtxInitialized := initialized } })

def initializeGcSdDevice (k : LoadAnswers) (m : ModuleSt) : Int32 × ModuleSt :=
  let m := { m with gGcCtx := k.getGcSd }
  if k.getGcSd = 0 then (-1, { m with driver := { m.driver with gGcCtxInitialized := false } })
  else (0, { m with driver := { m.driver with gGcCtxInitialized := true } })

def initializeGcGlobals (k : LoadAnswers) (m : ModuleSt) : Int32 × ModuleSt :=
  if k.gcDevType = 1 then m.initializeGcMmcDevice k
  else if k.gcDevType = 2 then m.initializeGcSdDevice k
  else (-1, m)

def initializeMsGlobals (m : ModuleSt) : Int32 × ModuleSt :=
  (0, { m with driver := { m.driver with gMsCtxInitialized := true } })

/-- The codes of the last three are not looked at. -/
def moduleStart (k : LoadAnswers) (m : ModuleSt) : ModuleSt :=
  let m := m.initThreadInfoMutex k.threadInfoMutex
  let m := m.initGlobalLog k.globalLogMutex
  let m := m.initSdstorLog k.sdstorLogMutex
  let m := (m.initializeEmmcGlobals k).2
  let m := (m.initializeGcGlobals k).2
  m.initializeMsGlobals.2

end ModuleSt

/-- The block that a pool call acquires or releases. -/
def Driver.entries (d : Driver) : DriverCall → List (Entry DriverResource)
  | .init k bps _ =>
      if d.pool.gClusterPoolInitialized ∨ bps ≠ sdDefaultSectorSize then []
      else
        match k.pool.alloc with
        | .refused _ _ => []
        | .granted uid _ _ _ => [.acquire (.block uid)]
  | .deinit k =>
      if d.pool.gClusterPoolInitialized = false ∨ k.pool.free < 0 then []
      else [.release (.block d.pool.gClusterPool)]
  | .readCluster _ _ _ => []

namespace ModuleSt

def call (m : ModuleSt) (c : DriverCall) : ModuleSt :=
  { m with driver := m.driver.call c, books := m.books ++ m.driver.entries c }

def deinitGlobalLog (m : ModuleSt) : ModuleSt :=
  { m with
    gGlobalLogMutex := -1
    books := m.books ++ [.release (.mutex m.gGlobalLogMutex)] }

def deinitSdstorLog (m : ModuleSt) : ModuleSt :=
  { m with
    gSdstorLogMutex := -1
    books := m.books ++ [.release (.mutex m.gSdstorLogMutex)] }

def deinitThreadInfoMutex (m : ModuleSt) : ModuleSt :=
  { m with
    gThreadInfoMutex := -1
    books := m.books ++ [.release (.mutex m.gThreadInfoMutex)] }

def moduleStop (k : DriverAnswers) (m : ModuleSt) : ModuleSt :=
  let m := m.call (.deinit k)
  let m := m.deinitGlobalLog
  let m := m.deinitSdstorLog
  m.deinitThreadInfoMutex

end ModuleSt

/-! ## The devices -/

/-- `module_start` finds the device's context. -/
def LoadAnswers.finds (k : LoadAnswers) : Device → Bool
  | .emmc => !decide (k.getEmmc = 0) || !decide (k.initializeEmmc.code < 0)
  | .gc =>
      if k.gcDevType = 1 then !decide (k.getGcMmc = 0) || !decide (k.initializeGcMmc.code < 0)
      else decide (k.gcDevType = 2) && !decide (k.getGcSd = 0)
  | .ms => true

theorem initializeMmc_initialized (get : UInt32) (k : ContextAnswer) :
    (initializeMmc get k).2.2 = (!decide (get = 0) || !decide (k.code < 0)) := by
  rw [initializeMmc]
  by_cases hget : get = 0
  · rw [if_pos hget, decide_eq_true hget, Bool.not_true, Bool.false_or]
    split
    next hcode => rw [decide_eq_true hcode, Bool.not_true]
    next hcode => rw [decide_eq_false hcode, Bool.not_false]
  · rw [if_neg hget, decide_eq_false hget, Bool.not_false, Bool.true_or]

theorem ctxInitialized_moduleStart (k : LoadAnswers) (dev : Device) :
    (ModuleSt.moduleStart k {}).driver.ctxInitialized dev = k.finds dev := by
  rw [ModuleSt.moduleStart, ModuleSt.initializeGcGlobals]
  cases dev with
  | emmc =>
      rw [LoadAnswers.finds, ← initializeMmc_initialized]
      split
      · rfl
      · split
        · rw [ModuleSt.initializeGcSdDevice]
          split <;> rfl
        · rfl
  | gc =>
      rw [LoadAnswers.finds, ← initializeMmc_initialized]
      split
      · rfl
      · split
        next hsd =>
          rw [decide_eq_true hsd, Bool.true_and, ModuleSt.initializeGcSdDevice]
          split
          next hget => rw [decide_eq_true hget]; rfl
          next hget => rw [decide_eq_false hget]; rfl
        next hsd => rw [decide_eq_false hsd, Bool.false_and]; rfl
  | ms => rfl

/-- A call looks for no context. -/
theorem Driver.ctxInitialized_call (d : Driver) (c : DriverCall) (dev : Device) :
    (d.call c).ctxInitialized dev = d.ctxInitialized dev := by
  cases c with
  | init k bps spc => cases dev <;> rfl
  | deinit k => cases dev <;> rfl
  | readCluster dev' k cluster =>
      obtain ⟨mem, h⟩ := readClusterOn_pool dev' k cluster d
      show (readClusterOn dev' k cluster d).2.2.ctxInitialized dev = _
      rw [h]
      cases dev <;> rfl

/-! ## The pool's block -/

/-- The initialization gets a block and not its base. -/
def DriverCall.LosesBlock (d : Driver) : DriverCall → Prop
  | .init k bps _ =>
      d.pool.gClusterPoolInitialized = false ∧ bps = sdDefaultSectorSize ∧
        k.pool.alloc.isGranted = true ∧ k.pool.base < 0
  | _ => False

/-- The pool's block, which the flag stands for. -/
def Driver.poolBlock (d : Driver) : List DriverResource :=
  heldIf (d.pool.gClusterPoolInitialized = true) (.block d.pool.gClusterPool)

/-- The blocks with these uids. -/
def lostBlocks (uids : List Int32) : List DriverResource := uids.map .block

theorem Driver.poolBlock_of_set {d : Driver} (h : d.pool.gClusterPoolInitialized = true) :
    d.poolBlock = [.block d.pool.gClusterPool] :=
  if_pos h

theorem Driver.poolBlock_of_unset {d : Driver} (h : d.pool.gClusterPoolInitialized = false) :
    d.poolBlock = [] :=
  if_neg (ne_true_of_eq_false h)

theorem Driver.poolBlock_congr {d d' : Driver} (h : d'.pool = d.pool) :
    d'.poolBlock = d.poolBlock := by
  rw [poolBlock, poolBlock, h]

/-- An initialization that comes to the allocation. -/
theorem Driver.entries_init {d : Driver} {k : DriverAnswers} {bps spc : Int32}
    (hf : d.pool.gClusterPoolInitialized = false) (hbps : bps = sdDefaultSectorSize) :
    d.entries (.init k bps spc) =
      match k.pool.alloc with
      | .refused _ _ => []
      | .granted uid _ _ _ => [.acquire (.block uid)] :=
  if_neg (not_or.mpr ⟨ne_true_of_eq_false hf, not_not.mpr hbps⟩)

/-- A call that asks the kernel for nothing, or in vain. -/
theorem Driver.call_entries_nil {d : Driver} {c : DriverCall} {live others : List DriverResource}
    (h : live ~ d.poolBlock ++ others) (hentries : d.entries c = [])
    (hblock : (d.call c).poolBlock = d.poolBlock) (hkeeps : ¬ c.LosesBlock d) :
    ∃ live' lost, Leads live (d.entries c) live' ∧
      live' ~ (d.call c).poolBlock ++ (lostBlocks lost ++ others) ∧
        (lost = [] ↔ ¬ c.LosesBlock d) := by
  refine ⟨live, [], ?_, ?_, iff_of_true rfl hkeeps⟩
  · rw [hentries]
    exact ⟨trivial, rfl⟩
  · rw [hblock]
    exact h

/-- The step lemma: of what a call acquires, the pool's block is the module's and the rest is
lost. -/
theorem Driver.call_entries (d : Driver) (c : DriverCall) {live others : List DriverResource}
    (h : live ~ d.poolBlock ++ others) :
    ∃ live' lost, Leads live (d.entries c) live' ∧
      live' ~ (d.call c).poolBlock ++ (lostBlocks lost ++ others) ∧
        (lost = [] ↔ ¬ c.LosesBlock d) := by
  cases c with
  | readCluster dev k cluster =>
      refine call_entries_nil h rfl ?_ not_false
      obtain ⟨mem, hread⟩ := readClusterOn_pool dev k cluster d
      show (readClusterOn dev k cluster d).2.2.poolBlock = _
      rw [hread]
      rfl
  | deinit k =>
      have hpool : (d.call (.deinit k)).pool = (poolDeinit k.pool d.pool).2 := rfl
      rcases poolDeinit_cases k.pool d.pool with ⟨hf, hd⟩ | ⟨_, hfree, hd⟩ | ⟨hf, hfree, hd⟩
      · rw [hd] at hpool
        exact call_entries_nil h (if_pos (Or.inl hf)) (poolBlock_congr hpool) not_false
      · rw [hd] at hpool
        exact call_entries_nil h (if_pos (Or.inr hfree)) (poolBlock_congr hpool) not_false
      · have hentries : d.entries (.deinit k) = [.release (.block d.pool.gClusterPool)] :=
          if_neg (not_or.mpr ⟨ne_false_of_eq_true hf, hfree⟩)
        have hclosed : (d.call (.deinit k)).poolBlock = [] := by
          refine poolBlock_of_unset ?_
          rw [hpool, hd]
          rfl
        rw [poolBlock_of_set hf] at h
        have herase := h.erase (.block d.pool.gClusterPool)
        rw [List.singleton_append, List.erase_cons_head] at herase
        rw [hentries, hclosed]
        exact ⟨_, [], ⟨⟨h.mem_iff.mpr List.mem_cons_self, trivial⟩, rfl⟩, herase,
          iff_of_true rfl not_false⟩
  | init k bps spc =>
      have hpool : (d.call (.init k bps spc)).pool = (poolInit k.pool bps spc d.pool).2 := rfl
      rcases poolInit_cases k.pool bps spc d.pool with
        ⟨hf, hi⟩ | ⟨_, hbps, hi⟩ | ⟨hf, hbps, _, _, halloc, hi⟩ |
        ⟨hf, hbps, uid, _, base, slack, halloc, hbase, hi⟩ |
        ⟨hf, hbps, uid, _, base, slack, halloc, hbase, hi⟩
      · rw [hi] at hpool
        refine call_entries_nil h (if_pos (Or.inl hf)) (poolBlock_congr hpool) ?_
        intro hloses
        exact ne_true_of_eq_false hloses.1 hf
      · rw [hi] at hpool
        refine call_entries_nil h (if_pos (Or.inr hbps)) (poolBlock_congr hpool) ?_
        intro hloses
        exact hbps hloses.2.1
      · -- The refusal's code is in `g_clusterPool`, which means nothing while the flag is clear.
        have hentries : d.entries (.init k bps spc) = [] := by
          rw [entries_init hf hbps, halloc]
        have hblock : (d.call (.init k bps spc)).poolBlock = d.poolBlock := by
          rw [poolBlock_of_unset hf]
          refine poolBlock_of_unset ?_
          rw [hpool, hi]
          exact hf
        refine call_entries_nil h hentries hblock ?_
        intro hloses
        rw [DriverCall.LosesBlock, halloc] at hloses
        exact Bool.false_ne_true hloses.2.2.1
      · -- The flag stays clear, and the uid is all there is of the block.
        have hclear : (d.call (.init k bps spc)).poolBlock = [] := by
          refine poolBlock_of_unset ?_
          rw [hpool, hi]
          exact hf
        have hloses : (DriverCall.init k bps spc).LosesBlock d := by
          rw [DriverCall.LosesBlock, halloc]
          exact ⟨hf, hbps, rfl, hbase⟩
        rw [poolBlock_of_unset hf] at h
        rw [entries_init hf hbps, halloc, hclear]
        exact ⟨_, [uid], ⟨⟨trivial, trivial⟩, rfl⟩, h.cons _,
          iff_of_false (List.cons_ne_nil _ _) (not_not.mpr hloses)⟩
      · have hopened : (d.call (.init k bps spc)).poolBlock = [.block uid] := by
          have hset : (d.call (.init k bps spc)).pool.gClusterPoolInitialized = true := by
            rw [hpool, hi]
            rfl
          rw [poolBlock_of_set hset, hpool, hi]
          rfl
        rw [poolBlock_of_unset hf] at h
        rw [entries_init hf hbps, halloc, hopened]
        exact ⟨_, [], ⟨⟨trivial, trivial⟩, rfl⟩, h.cons _,
          iff_of_true rfl fun hloses => hbase hloses.2.2.2⟩

/-- The block that `psvemmcDeinitialize` gives back. -/
def Driver.freedBlock (k : DriverAnswers) (d : Driver) : List DriverResource :=
  heldIf (d.pool.gClusterPoolInitialized = true ∧ ¬ k.pool.free < 0) (.block d.pool.gClusterPool)

theorem Driver.entries_deinit (k : DriverAnswers) (d : Driver) :
    d.entries (.deinit k) = (d.freedBlock k).map .release := by
  rw [entries, freedBlock, heldIf]
  by_cases hfreed : d.pool.gClusterPoolInitialized = true ∧ ¬ k.pool.free < 0
  · rw [if_pos hfreed, if_neg (not_or.mpr ⟨ne_false_of_eq_true hfreed.1, hfreed.2⟩)]
    rfl
  · have hkept : d.pool.gClusterPoolInitialized = false ∨ k.pool.free < 0 := by
      rw [← Bool.not_eq_true]
      exact (not_and_or.mp hfreed).imp_right not_not.mp
    rw [if_neg hfreed, if_pos hkept]
    rfl

theorem Driver.poolBlock_perm_freedBlock_iff {d : Driver} {k : DriverAnswers} {lost : List Int32} :
    d.poolBlock ++ lostBlocks lost ~ d.freedBlock k ↔
      lost = [] ∧ (d.pool.gClusterPoolInitialized = true → ¬ k.pool.free < 0) := by
  have hlost : lostBlocks lost ~ [] ↔ lost = [] := by
    rw [List.perm_nil, lostBlocks, List.map_eq_nil_iff]
  cases hset : d.pool.gClusterPoolInitialized with
  | false =>
      rw [poolBlock_of_unset hset, freedBlock, heldIf,
        if_neg fun h => Bool.false_ne_true (hset.symm.trans h.1), List.nil_append, hlost]
      exact (and_iff_left fun h => absurd h Bool.false_ne_true).symm
  | true =>
      rw [poolBlock_of_set hset, freedBlock, heldIf, List.singleton_append]
      by_cases hfree : k.pool.free < 0
      · rw [if_neg fun h => h.2 hfree, List.perm_nil]
        exact iff_of_false (List.cons_ne_nil _ _) fun h => h.2 rfl hfree
      · rw [if_pos ⟨hset, hfree⟩, List.perm_cons, hlost]
        exact (and_iff_left fun _ => hfree).symm

/-- The run lemma. -/
theorem ModuleSt.run_call (m : ModuleSt) (calls : List DriverCall)
    {live others : List DriverResource} (hlead : Leads [] m.books live)
    (h : live ~ m.driver.poolBlock ++ others) :
    (run ModuleSt.call m calls).driver = run Driver.call m.driver calls ∧
    ∃ live' lost, Leads [] (run ModuleSt.call m calls).books live' ∧
      live' ~ (run Driver.call m.driver calls).poolBlock ++ (lostBlocks lost ++ others) ∧
      (lost = [] ↔ Along Driver.call (fun d c => ¬ c.LosesBlock d) m.driver calls) := by
  induction calls generalizing m live others with
  | nil => exact ⟨rfl, live, [], hlead, h, iff_of_true rfl trivial⟩
  | cons c calls ih =>
      obtain ⟨live₁, lost₁, hlead₁, h₁, hlost₁⟩ := m.driver.call_entries c h
      obtain ⟨hdriver, live₂, lost₂, hlead₂, h₂, hlost₂⟩ :=
        ih (m.call c) (hlead.append hlead₁) h₁
      refine ⟨hdriver, live₂, lost₂ ++ lost₁, hlead₂, ?_, ?_⟩
      · rw [lostBlocks, List.map_append, List.append_assoc]
        exact h₂
      · rw [List.append_eq_nil_iff, hlost₁, hlost₂, and_comm]
        rfl

/-! ## The whole life -/

/-- The kernel makes the three mutexes. -/
def LoadAnswers.MutexesGranted (k : LoadAnswers) : Prop :=
  0 ≤ k.threadInfoMutex ∧ 0 ≤ k.globalLogMutex ∧ 0 ≤ k.sdstorLogMutex

/-- The mutexes that were made. -/
def LoadAnswers.mutexes (k : LoadAnswers) : List DriverResource :=
  createdMutex k.sdstorLogMutex ++
    (createdMutex k.globalLogMutex ++ createdMutex k.threadInfoMutex)

/-- What was answered for the three, in the order in which they are deleted. -/
def LoadAnswers.asked (k : LoadAnswers) : List DriverResource :=
  [.mutex k.globalLogMutex, .mutex k.sdstorLogMutex, .mutex k.threadInfoMutex]

theorem createdMutex_of_nonneg {id : Int32} (h : 0 ≤ id) : createdMutex id = [.mutex id] :=
  if_pos h

theorem LoadAnswers.mutexes_perm {k : LoadAnswers} (h : k.MutexesGranted) :
    k.mutexes ~ k.asked := by
  rw [mutexes, createdMutex_of_nonneg h.1, createdMutex_of_nonneg h.2.1,
    createdMutex_of_nonneg h.2.2]
  exact List.Perm.swap _ _ _

theorem nonneg_of_mem_createdMutex {id id' : Int32}
    (h : DriverResource.mutex id ∈ createdMutex id') : 0 ≤ id := by
  obtain ⟨hle, hid⟩ := mem_heldIf.mp h
  exact DriverResource.mutex.inj hid ▸ hle

theorem LoadAnswers.nonneg_of_mem_mutexes {k : LoadAnswers} {id : Int32}
    (h : DriverResource.mutex id ∈ k.mutexes) : 0 ≤ id := by
  rcases List.mem_append.mp h with h | h
  · exact nonneg_of_mem_createdMutex h
  · rcases List.mem_append.mp h with h | h
    · exact nonneg_of_mem_createdMutex h
    · exact nonneg_of_mem_createdMutex h

/-- Next to blocks, the mutexes that were made are all that are deleted exactly when all three
were made. -/
theorem LoadAnswers.append_mutexes_perm_iff {k : LoadAnswers} {rs rs' : List DriverResource}
    (hblocks : ∀ id, DriverResource.mutex id ∉ rs) :
    rs ++ k.mutexes ~ rs' ++ k.asked ↔ k.MutexesGranted ∧ rs ~ rs' := by
  constructor
  · intro hperm
    have hnonneg : ∀ id, DriverResource.mutex id ∈ k.asked → 0 ≤ id := by
      intro id hid
      have hmade := hperm.mem_iff.mpr (List.mem_append_right rs' hid)
      exact nonneg_of_mem_mutexes ((List.mem_append.mp hmade).resolve_left (hblocks id))
    have hgranted : k.MutexesGranted :=
      ⟨hnonneg _ (List.mem_cons_of_mem _ (List.mem_cons_of_mem _ List.mem_cons_self)),
        hnonneg _ List.mem_cons_self, hnonneg _ (List.mem_cons_of_mem _ List.mem_cons_self)⟩
    have hboth := hperm.trans ((mutexes_perm hgranted).symm.append_left rs')
    exact ⟨hgranted, (List.perm_append_right_iff _).mp hboth⟩
  · rintro ⟨hgranted, hperm⟩
    exact hperm.append (mutexes_perm hgranted)

namespace ModuleSt

/-- The mutexes that `module_stop` deletes. -/
def mutexes (m : ModuleSt) : List DriverResource :=
  [.mutex m.gGlobalLogMutex, .mutex m.gSdstorLogMutex, .mutex m.gThreadInfoMutex]

/-- The module after `module_start`. -/
structure Started (k : LoadAnswers) (m : ModuleSt) : Prop where
  mutexes : m.mutexes = k.asked
  pool : m.driver.pool.gClusterPoolInitialized = false
  leads : Leads [] m.books k.mutexes

/-- The contexts have nothing to do with the rest. -/
theorem Started.globals {k : LoadAnswers} {m : ModuleSt} (h : m.Started k) :
    ((m.initializeEmmcGlobals k).2.initializeGcGlobals k).2.initializeMsGlobals.2.Started k := by
  rw [initializeGcGlobals]
  split
  · exact ⟨h.mutexes, h.pool, h.leads⟩
  · split
    · rw [initializeGcSdDevice]
      split <;> exact ⟨h.mutexes, h.pool, h.leads⟩
    · exact ⟨h.mutexes, h.pool, h.leads⟩

theorem moduleStart_started (k : LoadAnswers) : (moduleStart k {}).Started k := by
  have hfirst : Leads [] (createsMutex k.threadInfoMutex) (createdMutex k.threadInfoMutex ++ []) :=
    leads_createsMutex k.threadInfoMutex
  have hleads := hfirst.append
    ((leads_createsMutex k.globalLogMutex).append (leads_createsMutex k.sdstorLogMutex))
  rw [List.append_nil, ← List.append_assoc] at hleads
  exact Started.globals ⟨rfl, rfl, hleads⟩

/-- The calls leave the mutexes alone. -/
theorem mutexes_run_call (m : ModuleSt) (calls : List DriverCall) :
    (run call m calls).mutexes = m.mutexes := by
  induction calls generalizing m with
  | nil => rfl
  | cons c calls ih => exact ih (m.call c)

/-- What `module_stop` gives back, in order. -/
def closing (k : DriverAnswers) (m : ModuleSt) : List DriverResource :=
  m.driver.freedBlock k ++ m.mutexes

theorem books_moduleStop (k : DriverAnswers) (m : ModuleSt) :
    (m.moduleStop k).books = m.books ++ (m.closing k).map .release := by
  have hbooks : (m.moduleStop k).books = m.books ++ m.driver.entries (.deinit k) ++
      [.release (.mutex m.gGlobalLogMutex)] ++ [.release (.mutex m.gSdstorLogMutex)] ++
      [.release (.mutex m.gThreadInfoMutex)] := rfl
  rw [hbooks, closing, List.map_append, ← Driver.entries_deinit]
  simp only [List.append_assoc]
  rfl

/-- What is left is what is given back. -/
theorem closing_perm_iff {k : LoadAnswers} {kStop : DriverAnswers} {m : ModuleSt}
    (hmutexes : m.mutexes = k.asked) (lost : List Int32) :
    m.driver.poolBlock ++ (lostBlocks lost ++ k.mutexes) ~ m.closing kStop ↔
      k.MutexesGranted ∧ lost = [] ∧
        (m.driver.pool.gClusterPoolInitialized = true → ¬ kStop.pool.free < 0) := by
  have hblocks : ∀ id, DriverResource.mutex id ∉ m.driver.poolBlock ++ lostBlocks lost := by
    intro id hid
    rcases List.mem_append.mp hid with hid | hid
    · cases (mem_heldIf.mp hid).2
    · obtain ⟨uid, _, huid⟩ := List.mem_map.mp hid
      cases huid
  rw [closing, hmutexes, ← List.append_assoc, LoadAnswers.append_mutexes_perm_iff hblocks,
    Driver.poolBlock_perm_freedBlock_iff]

end ModuleSt

/-- **What a life of the module loses.**  For all answers of the kernel and all calls of the
exported functions: a device's context is there at the end as it was at the start; and the mutexes
and the blocks of the pool are released only while they are there, and are all released by
`module_stop`, exactly when the mutexes were made, no initialization got a block without its base,
and the last block, if there is one, is taken back. -/
theorem driver_unload (k : LoadAnswers) (calls : List DriverCall) (kStop : DriverAnswers) :
    let m := run ModuleSt.call (ModuleSt.moduleStart k {}) calls
    (∀ dev, m.driver.ctxInitialized dev = k.finds dev) ∧
      (Balanced (m.moduleStop kStop).books ↔
        k.MutexesGranted ∧
          Along Driver.call (fun d c => ¬ c.LosesBlock d) (ModuleSt.moduleStart k {}).driver
            calls ∧
          (m.driver.pool.gClusterPoolInitialized = true → ¬ kStop.pool.free < 0)) := by
  have hstarted := ModuleSt.moduleStart_started k
  have hempty : k.mutexes ~ (ModuleSt.moduleStart k {}).driver.poolBlock ++ k.mutexes := by
    rw [Driver.poolBlock_of_unset hstarted.pool, List.nil_append]
  obtain ⟨hdriver, live, lost, hlead, hlive, hlost⟩ :=
    ModuleSt.run_call (ModuleSt.moduleStart k {}) calls hstarted.leads hempty
  have hmutexes := (ModuleSt.mutexes_run_call (ModuleSt.moduleStart k {}) calls).trans
    hstarted.mutexes
  constructor
  · intro dev
    have hstep : ∀ d c, Driver.ctxInitialized d dev = k.finds dev → True →
        (Driver.call d c).ctxInitialized dev = k.finds dev :=
      fun d c hd _ => (d.ctxInitialized_call c dev).trans hd
    rw [hdriver]
    exact inv_run hstep (ctxInitialized_moduleStart k dev) (along_of_mem fun _ _ _ => trivial)
  · rw [ModuleSt.books_moduleStop, hlead.balanced_append_releases_iff, hlive.congr_left,
      ← hdriver, ModuleSt.closing_perm_iff hmutexes, hlost]

end PsvEmmc
