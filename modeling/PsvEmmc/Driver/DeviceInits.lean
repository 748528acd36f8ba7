/-
# `PsvEmmc.Driver.DeviceInits` — the last initializations of the two card slots

The hooks on the initialization of an mmc and of an sd device keep what they
were called with, and the context that came back, in an array of four for
each kind.  Both let the original function run first; both take a null result
pointer into account when they store the context, and read through it without
a test when they log the call.

The arrays are right in every run (`inits_recorded`).  A call whose result
pointer is null comes as far as its record and then faults inside the bracket
of the log, so every call returns exactly when no pointer is null
(`device_inits_iff`).  In the model the calls after a fault find what it left.
-/
import PsvEmmc.Driver.Log
import PsvEmmc.Lib.Cyclic

namespace PsvEmmc

open Runs Cyclic Filling

/-! ## The hooks -/

def deviceInfoSize : Nat := 4

/-- `device_init_info`. -/
structure DeviceInitInfo where
  sdCtxIndex : Int32
  ctx : UInt32
  deriving DecidableEq, Repr

inductive DeviceKind where
  | mmc
  | sd
  deriving DecidableEq, Repr

/-- A call of a hook: its arguments, where `none` is the null pointer and the context is what is
behind the pointer after the original returned; what the original returned; what `ksceIoOpen`
answers if the log asks; and what `set_5018_data` is answered. -/
structure InitCall where
  kind : DeviceKind
  sdCtxIndex : Int32
  result : Option UInt32
  res : Int32
  uid : Int32
  gcInfo : Int32
  ofstRes : Int32

/-- The two arrays with `last_mmc_index` and `last_sd_index`, the log with the kernel calls it has
made, and the data of `SceSblGcAuthMgr`. -/
structure InitSt where
  lastMmcInits : Buffer DeviceInitInfo
  lastSdInits : Buffer DeviceInitInfo
  globalLog : Log
  ioCalls : List IoCall
  data5018 : List UInt8

/-- What a hook stores of a call. -/
def InitCall.record (c : InitCall) : DeviceInitInfo where
  sdCtxIndex := c.sdCtxIndex
  ctx :=
    match c.result with
    | some ctx => ctx
    | none => -1

/-- A function of the log. -/
def InitSt.onLog (s : InitSt) (f : Log → Option IoCall × Log) : InitSt :=
  { s with globalLog := (f s.globalLog).2, ioCalls := s.ioCalls ++ (f s.globalLog).1.toList }

/-- `%x`. -/
def hexDigits (w : UInt32) : List Char := Nat.toDigits 16 w.toNat

/-- `init ... - idx:%x ctx:%x res:%x`. -/
def initLine (start : String) (c : InitCall) (ctx : UInt32) : List UInt8 :=
  (start.toList ++ " - idx:".toList ++ hexDigits c.sdCtxIndex.toUInt32 ++ " ctx:".toList ++
    hexDigits ctx ++ " res:".toList ++ hexDigits c.res.toUInt32 ++ ['\n']).map
      fun x => UInt8.ofNat x.toNat

/-- The lines from `open_global_log` to `close_global_log`, and whether they are done: reading
`*result` may fault. -/
def logInit (start : String) (c : InitCall) (s : InitSt) : Bool × InitSt :=
  let opened := s.onLog (openGlobalLog c.uid)
  match c.result with
  | none => (false, opened)
  | some ctx =>
      (true, (opened.onLog (fileGlobalWriteLen (initLine start c ctx))).onLog closeGlobalLog)

def data5018RealData : List UInt8 := List.replicate 0x34 0

/-- `set_5018_data`. -/
def set5018Data (c : InitCall) (s : InitSt) : InitSt :=
  if 0 ≤ c.gcInfo ∧ c.ofstRes = 0 then { s with data5018 := data5018RealData } else s

/-- A hook on an initialization: store the call, log it, and what is done then; a call that faults
has no result. -/
def recordingHook (start : String) (store andThen : InitSt → InitSt) (c : InitCall) (s : InitSt) :
    Option Int32 × InitSt :=
  let logged := logInit start c (store s)
  if logged.1 then (some c.res, andThen logged.2) else (none, logged.2)

/-- `init_mmc_hook`. -/
def initMmcHook (c : InitCall) : InitSt → Option Int32 × InitSt :=
  recordingHook "init mmc"
    (fun s => { s with lastMmcInits := s.lastMmcInits.put deviceInfoSize c.record }) id c

/-- `init_sd_hook`. -/
def initSdHook (c : InitCall) : InitSt → Option Int32 × InitSt :=
  recordingHook "init sd"
    (fun s => { s with lastSdInits := s.lastSdInits.put deviceInfoSize c.record }) (set5018Data c) c

def initHook (s : InitSt) (c : InitCall) : Option Int32 × InitSt :=
  match c.kind with
  | .mmc => initMmcHook c s
  | .sd => initSdHook c s

def initStep (s : InitSt) (c : InitCall) : InitSt := (initHook s c).2

/-! ## One call -/

/-- The array of a kind. -/
def InitSt.inits (s : InitSt) : DeviceKind → Buffer DeviceInitInfo
  | .mmc => s.lastMmcInits
  | .sd => s.lastSdInits

/-- The hook returns, and what it returns is the original's. -/
def Completes (s : InitSt) (c : InitCall) : Prop := (initHook s c).1 = some c.res

instance (s : InitSt) (c : InitCall) : Decidable (Completes s c) :=
  inferInstanceAs (Decidable (_ = _))

theorem logInit_inits (start : String) (c : InitCall) (s : InitSt) (k : DeviceKind) :
    (logInit start c s).2.inits k = s.inits k := by
  unfold logInit
  cases c.result <;> cases k <;> rfl

theorem set5018Data_inits (c : InitCall) (s : InitSt) (k : DeviceKind) :
    (set5018Data c s).inits k = s.inits k := by
  unfold set5018Data
  split
  · cases k <;> rfl
  · rfl

theorem logInit_done_iff (start : String) (c : InitCall) (s : InitSt) :
    (logInit start c s).1 = true ↔ c.result ≠ none := by
  unfold logInit
  cases c.result <;> simp

theorem recordingHook_returns_iff (start : String) (store andThen : InitSt → InitSt)
    (c : InitCall) (s : InitSt) :
    (recordingHook start store andThen c s).1 = some c.res ↔ c.result ≠ none := by
  rw [← logInit_done_iff start c (store s), recordingHook]
  by_cases hdone : (logInit start c (store s)).1 = true
  · rw [if_pos hdone]
    exact iff_of_true rfl hdone
  · rw [if_neg hdone]
    exact iff_of_false (fun h => by cases h) hdone

theorem recordingHook_inits (start : String) (store andThen : InitSt → InitSt) (c : InitCall)
    (s : InitSt) (k : DeviceKind) (hthen : ∀ s, (andThen s).inits k = s.inits k) :
    (recordingHook start store andThen c s).2.inits k = (store s).inits k := by
  rw [← logInit_inits start c (store s), recordingHook]
  split
  · exact hthen _
  · rfl

theorem completes_iff (s : InitSt) (c : InitCall) : Completes s c ↔ c.result ≠ none := by
  unfold Completes initHook
  cases c.kind with
  | mmc => exact recordingHook_returns_iff _ _ _ c s
  | sd => exact recordingHook_returns_iff _ _ _ c s

/-- A call writes the next cell of its own array, and nothing of the other. -/
theorem initStep_inits (s : InitSt) (c : InitCall) (k : DeviceKind) :
    (initStep s c).inits k =
      if c.kind = k then (s.inits k).put deviceInfoSize c.record else s.inits k := by
  unfold initStep initHook
  cases c.kind with
  | mmc =>
      refine (recordingHook_inits _ _ id c s k fun _ => rfl).trans ?_
      cases k <;> rfl
  | sd =>
      refine (recordingHook_inits _ _ _ c s k fun s => set5018Data_inits c s k).trans ?_
      cases k <;> rfl

/-! ## Runs -/

/-- What the calls of a kind store. -/
def records (k : DeviceKind) (calls : List InitCall) : List DeviceInitInfo :=
  (calls.filter fun c => c.kind = k).map InitCall.record

theorem records_cons (k : DeviceKind) (c : InitCall) (calls : List InitCall) :
    records k (c :: calls) =
      if c.kind = k then c.record :: records k calls else records k calls := by
  by_cases hkind : c.kind = k <;> simp [records, hkind]

/-- An array has seen the calls of its kind. -/
theorem run_inits (s : InitSt) (calls : List InitCall) (k : DeviceKind) :
    (run initStep s calls).inits k = (s.inits k).putAll deviceInfoSize (records k calls) := by
  induction calls generalizing s with
  | nil => rfl
  | cons c calls ih =>
      rw [run_cons, ih, initStep_inits, records_cons]
      split <;> rfl

/-- An array and its index, after `rs` were recorded in one that held `cells`. -/
structure Holds (b : Buffer DeviceInitInfo) (cells : Nat → DeviceInitInfo)
    (rs : List DeviceInitInfo) : Prop where
  index : b.index = rs.length % deviceInfoSize
  count : (recent deviceInfoSize rs).length = min rs.length deviceInfoSize
  last : ∀ i r, (recent deviceInfoSize rs)[i]? = some r →
    b.cells (slot deviceInfoSize rs i) = r
  array : front b.cells deviceInfoSize =
    current deviceInfoSize rs ++ older deviceInfoSize rs ++ unused deviceInfoSize cells rs

/-- The driver when both indices are at the start. -/
def InitSt.start (mmc sd : Nat → DeviceInitInfo) (log : Log) (data5018 : List UInt8) : InitSt :=
  ⟨⟨mmc, 0⟩, ⟨sd, 0⟩, log, [], data5018⟩

/-- Each array has the calls of its kind. -/
structure InitsRecorded (mmc sd : Nat → DeviceInitInfo) (s : InitSt) (calls : List InitCall) :
    Prop where
  mmc : Holds s.lastMmcInits mmc (records .mmc calls)
  sd : Holds s.lastSdInits sd (records .sd calls)

theorem holds_putAll (cells : Nat → DeviceInitInfo) (rs : List DeviceInitInfo) :
    Holds ((Buffer.mk cells 0).putAll deviceInfoSize rs) cells rs where
  index := index_putAll (by decide) cells rs
  count := length_recent rs
  last _ _ hr := cells_slot (by decide) cells rs hr
  array := front_putAll (by decide) cells rs

/-- **The arrays are right in every run**, whether the calls return or not. -/
theorem inits_recorded (mmc sd : Nat → DeviceInitInfo) (log : Log) (data5018 : List UInt8)
    (calls : List InitCall) :
    InitsRecorded mmc sd (run initStep (InitSt.start mmc sd log data5018) calls) calls := by
  let s := InitSt.start mmc sd log data5018
  have hmmc : (run initStep s calls).lastMmcInits =
      (Buffer.mk mmc 0).putAll deviceInfoSize (records .mmc calls) := run_inits s calls .mmc
  have hsd : (run initStep s calls).lastSdInits =
      (Buffer.mk sd 0).putAll deviceInfoSize (records .sd calls) := run_inits s calls .sd
  exact ⟨hmmc ▸ holds_putAll mmc _, hsd ▸ holds_putAll sd _⟩

/-- Neither kind of call writes the array of the other. -/
def OtherKept (s : InitSt) (c : InitCall) : Prop :=
  ∀ k, c.kind ≠ k → (initStep s c).inits k = s.inits k

theorem otherKept (s : InitSt) (c : InitCall) : OtherKept s c := fun k hk => by
  rw [initStep_inits, if_neg hk]

/-- **When do the hooks keep their calls and return?** -/
theorem device_inits_iff (mmc sd : Nat → DeviceInitInfo) (log : Log) (data5018 : List UInt8)
    (calls : List InitCall) :
    let s := InitSt.start mmc sd log data5018
    (Along initStep Completes s calls ∧ InitsRecorded mmc sd (run initStep s calls) calls ∧
      Along initStep OtherKept s calls) ↔ ∀ c ∈ calls, c.result ≠ none := by
  intro s
  have hcompletes : Along initStep Completes s calls ↔ ∀ c ∈ calls, c.result ≠ none :=
    (along_congr completes_iff).trans along_iff_forall_mem
  rw [hcompletes]
  exact and_iff_left
    ⟨inits_recorded mmc sd log data5018 calls, along_of_mem fun c _ s => otherKept s c⟩

/-- The globals of a module that was just loaded. -/
def InitSt.boot : InitSt := .start (fun _ => ⟨0, 0⟩) (fun _ => ⟨0, 0⟩) {} []

/-- A null result pointer, to either hook. -/
theorem null_result_faults :
    ¬ Along initStep Completes InitSt.boot [⟨.mmc, 0, none, 0, 3, 0, 0⟩] ∧
    ¬ Along initStep Completes InitSt.boot [⟨.sd, 1, none, 0, 3, 0, 0⟩] := by
  decide

end PsvEmmc
