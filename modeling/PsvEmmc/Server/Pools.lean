/-
# `PsvEmmc.Server.Pools` — what one round of the loop does to the two pools

The `_cases` theorems say once what each handler can do; nothing after them
unfolds a handler.  Only INIT and DEINIT change the flags, the geometries, the
pointers or the blocks; every other handler changes at most the bytes in the
pools (`handle_sameControl`).  `round_cases` puts the three together: it is
the one statement about the loop that the invariants of the pools are proved
from.
-/
import PsvEmmc.Server

namespace PsvEmmc

open Words Memory Stream

/-! ## What the handlers of reads and writes do -/

/-- A sector read is refused at the receive, or executed. -/
theorem handleReadSector_cases (dev : Device) (k : Answers) (st : St) :
    ((st.conn.recv 4).count ≠ 4 ∧ handleReadSector dev k st =
      Handled.refuse k (-1)
        { command := (Command.readSector dev).code, vitaErr := -1,
          data := List.replicate 0x200 0 }
        { st with conn := (st.conn.recv 4).rest }) ∨
    ((st.conn.recv 4).count = 4 ∧ handleReadSector dev k st =
      executeReadSector dev (ofLeInt (st.conn.recv 4).bytes) k
        { st with conn := (st.conn.recv 4).rest }) := by
  by_cases hcount : (st.conn.recv 4).count = 4
  · exact Or.inr ⟨hcount, if_neg (not_not.mpr hcount)⟩
  · exact Or.inl ⟨hcount, if_pos hcount⟩

/-- So is a cluster read. -/
theorem handleReadCluster_cases (dev : Device) (k : Answers) (st : St) :
    ((st.conn.recv 4).count ≠ 4 ∧ handleReadCluster dev k st =
      Handled.refuse k (-1) { command := (Command.readCluster dev).code, vitaErr := -1 }
        { st with conn := (st.conn.recv 4).rest }) ∨
    ((st.conn.recv 4).count = 4 ∧ handleReadCluster dev k st =
      executeReadCluster dev (ofLeInt (st.conn.recv 4).bytes) k
        { st with conn := (st.conn.recv 4).rest }) := by
  by_cases hcount : (st.conn.recv 4).count = 4
  · exact Or.inr ⟨hcount, if_neg (not_not.mpr hcount)⟩
  · exact Or.inl ⟨hcount, if_pos hcount⟩

/-- A sector write is refused when its loop fails, or executed. -/
theorem handleWriteSector_cases (dev : Device) (k : Answers) (st : St) :
    ((st.conn.recvAll (4 + 0x200)).1 = false ∧ handleWriteSector dev k st =
      Handled.refuse k (-1) { command := (Command.writeSector dev).code, vitaErr := -1 }
        { st with conn := (st.conn.recvAll (4 + 0x200)).2.2 }) ∨
    ((st.conn.recvAll (4 + 0x200)).1 = true ∧ handleWriteSector dev k st =
      executeWriteSector dev (ofLeInt (st.conn.recvAll (4 + 0x200)).2.1)
        (Sector.ofList ((st.conn.recvAll (4 + 0x200)).2.1.drop 4)) k
        { st with conn := (st.conn.recvAll (4 + 0x200)).2.2 }) := by
  cases hok : (st.conn.recvAll (4 + 0x200)).1 with
  | false => exact Or.inl ⟨rfl, if_pos hok⟩
  | true => exact Or.inr ⟨rfl, if_neg (ne_false_of_eq_true hok)⟩

/-- The state of a cluster write after its loop, which receives into the pool. -/
def St.received (st : St) : St :=
  { st with
    conn := ((st.conn.recv 4).rest.recvAll st.server.clusterBytes).2.2,
    server :=
      { st.server with
        mem := store st.server.mem st.server.gClusterPoolPtr
          ((st.conn.recv 4).rest.recvAll st.server.clusterBytes).2.1 } }

/-- A cluster write is refused at the receive of its field, or when its loop fails, with what
came up to then in the pool, or executed. -/
theorem handleWriteCluster_cases (dev : Device) (k : Answers) (st : St) :
    ((st.conn.recv 4).count ≠ 4 ∧ handleWriteCluster dev k st =
      Handled.refuse k (-1) { command := (Command.writeCluster dev).code, vitaErr := -1 }
        { st with conn := (st.conn.recv 4).rest }) ∨
    ((st.conn.recv 4).count = 4 ∧
      ((st.conn.recv 4).rest.recvAll st.server.clusterBytes).1 = false ∧
        handleWriteCluster dev k st =
          { Handled.refuse k (-1) { command := (Command.writeCluster dev).code, vitaErr := -1 }
              st.received with
            touched := [⟨st.server.gClusterPoolPtr,
              ((st.conn.recv 4).rest.recvAll st.server.clusterBytes).2.1.length⟩] }) ∨
    ((st.conn.recv 4).count = 4 ∧
      ((st.conn.recv 4).rest.recvAll st.server.clusterBytes).1 = true ∧
        handleWriteCluster dev k st =
          executeWriteCluster dev (ofLeInt (st.conn.recv 4).bytes) k st.received) := by
  by_cases hcount : (st.conn.recv 4).count = 4
  · right
    rw [handleWriteCluster]
    dsimp only
    rw [if_neg (not_not.mpr hcount)]
    cases hok : ((st.conn.recv 4).rest.recvAll st.server.clusterBytes).1 with
    | false => exact Or.inl ⟨hcount, rfl, if_pos rfl⟩
    | true => exact Or.inr ⟨hcount, rfl, if_neg (by decide)⟩
  · exact Or.inl ⟨hcount, if_pos hcount⟩

/-! ## Handlers that leave the pools alone -/

/-- The two states differ at most in the connection and in the bytes in memory. -/
def St.SameControl (st st' : St) : Prop :=
  (∃ mem, st'.server = { st.server with mem := mem }) ∧
  (∃ mem, st'.driver = { st.driver with pool := { st.driver.pool with mem := mem } })

theorem St.SameControl.of_eq {st st' : St} (hs : st'.server = st.server)
    (hd : st'.driver = st.driver) : st.SameControl st' :=
  ⟨⟨st.server.mem, hs⟩, ⟨st.driver.pool.mem, hd⟩⟩

/-- A command that is neither INIT nor DEINIT changes no flag, geometry, pointer or block. -/
theorem handle_sameControl {c : Command} (hi : c ≠ .init) (hd : c ≠ .deinit) (k : Answers)
    (st : St) : st.SameControl (handle c k st).st := by
  cases c with
  | ping => exact .of_eq rfl rfl
  | term => exact .of_eq rfl rfl
  | init => exact absurd rfl hi
  | deinit => exact absurd rfl hd
  | readSector dev =>
      rw [handle_readSector]
      rcases handleReadSector_cases dev k st with ⟨_, h⟩ | ⟨_, h⟩
      · rw [h]
        exact .of_eq rfl rfl
      · rw [h]
        exact .of_eq rfl rfl
  | readCluster dev =>
      rw [handle_readCluster]
      rcases handleReadCluster_cases dev k st with ⟨_, h⟩ | ⟨_, h⟩
      · rw [h]
        exact .of_eq rfl rfl
      · rw [h]
        exact ⟨⟨_, rfl⟩, readClusterOn_pool dev k.kernel _ st.driver⟩
  | writeSector dev =>
      rw [handle_writeSector]
      rcases handleWriteSector_cases dev k st with ⟨_, h⟩ | ⟨_, h⟩
      · rw [h]
        exact .of_eq rfl rfl
      · rw [h]
        exact .of_eq rfl rfl
  | writeCluster dev =>
      rw [handle_writeCluster]
      rcases handleWriteCluster_cases dev k st with ⟨_, h⟩ | ⟨_, _, h⟩ | ⟨_, _, h⟩
      · rw [h]
        exact .of_eq rfl rfl
      · rw [h]
        exact ⟨⟨_, rfl⟩, ⟨_, rfl⟩⟩
      · rw [h]
        exact ⟨⟨_, rfl⟩, ⟨_, rfl⟩⟩

/-! ## INIT -/

/-- The geometry an INIT request asks for, if its two fields arrive with one receive. -/
def initRequest (conn : Inbound) : Option (Int32 × Int32) :=
  let r := conn.recv 8
  if r.count = 8 then some (ofLeInt r.bytes, ofLeInt (r.bytes.drop 4)) else none

/-- The two pools after an INIT whose fields arrived: the module is asked only when the
server's own pool was made. -/
def initPools (k : Answers) (bps spc : Int32) (server : Pool) (driver : Driver) : Pool × Driver :=
  ((initializePool k.user bps spc server).2,
    if (initializePool k.user bps spc server).1 ≠ 0 then driver
    else (psvemmcInitialize k.kernel bps spc driver).2)

/-- The response to an INIT whose fields arrived. -/
def initResponse (k : Answers) (bps spc : Int32) (server : Pool) (driver : Driver) : Response :=
  { command := Command.init.code,
    vitaErr := (initializePool k.user bps spc server).1,
    proxyErr :=
      if (initializePool k.user bps spc server).1 ≠ 0 then 0
      else (psvemmcInitialize k.kernel bps spc driver).1 }

theorem executeInit_eq (bps spc : Int32) (k : Answers) (st : St) :
    executeInit bps spc k st =
      { Handled.answer k (initResponse k bps spc st.server st.driver)
          ⟨(initPools k bps spc st.server st.driver).1,
            (initPools k bps spc st.server st.driver).2, st.conn⟩ with
        executed := some (.init bps spc) } := by
  simp only [executeInit, initResponse, initPools]
  split <;> rfl

/-- The outcomes of an INIT whose fields arrived: both pools are made, the server's is made and
the module refuses, or the server's is refused and the module is not asked. -/
theorem initPools_cases (k : Answers) (bps spc : Int32) (server : Pool) (driver : Driver) :
    (server.InitCompletes k.user bps ∧ driver.pool.InitCompletes k.kernel.pool bps ∧
      initResponse k bps spc server driver = { command := Command.init.code } ∧
      ∃ uid base slack uid' base' slack', initPools k bps spc server driver =
        (server.opened spc uid base slack,
          { driver with pool := driver.pool.opened spc uid' base' slack' })) ∨
    (server.InitCompletes k.user bps ∧ ¬ driver.pool.InitCompletes k.kernel.pool bps ∧
      (initResponse k bps spc server driver).proxyErr < 0 ∧
      (∃ uid base slack, (initPools k bps spc server driver).1 =
        server.opened spc uid base slack) ∧
      ((initPools k bps spc server driver).2.pool.gClusterPoolInitialized = true →
        (initPools k bps spc server driver).2.pool = driver.pool)) ∨
    (¬ server.InitCompletes k.user bps ∧ (initResponse k bps spc server driver).vitaErr < 0 ∧
      (initPools k bps spc server driver).1.gClusterPoolInitialized =
        server.gClusterPoolInitialized ∧
      (initPools k bps spc server driver).2 = driver) := by
  rcases poolInit_completes_or k.user bps spc server with
    ⟨hs, hcode, uid, base, slack, ho⟩ | ⟨hs, hneg, hflag⟩
  · have hasked : ¬ (initializePool k.user bps spc server).1 ≠ 0 := not_not.mpr hcode
    rcases poolInit_completes_or k.kernel.pool bps spc driver.pool with
      ⟨hd, hcode', uid', base', slack', ho'⟩ | ⟨hd, hneg', hflag'⟩
    · left
      refine ⟨hs, hd, ?_, uid, base, slack, uid', base', slack', ?_⟩
      · rw [initResponse, if_neg hasked, initializePool, hcode, psvemmcInitialize, hcode']
      · rw [initPools, if_neg hasked, initializePool, ho, ← ho']
        rfl
    · right; left
      rw [initPools, if_neg hasked, initResponse, if_neg hasked]
      refine ⟨hs, hd, hneg', ⟨uid, base, slack, ho⟩, ?_⟩
      intro hset
      exact congrArg Prod.snd (poolInit_of_set (hflag'.symm.trans hset))
  · right; right
    exact ⟨hs, hneg, hflag, if_pos (Int32.ne_of_lt hneg)⟩

/-- INIT is refused at the flag, or at the receive, or goes to the pools. -/
theorem handleCommand2_cases (k : Answers) (st : St) :
    (st.server.gClusterPoolInitialized = true ∧ handleCommand2 k st =
      Handled.refuse k (-2) { command := Command.init.code, vitaErr := -2 } st) ∨
    (st.server.gClusterPoolInitialized = false ∧ initRequest st.conn = none ∧
      handleCommand2 k st =
        Handled.refuse k (-1) { command := Command.init.code, vitaErr := -1 }
          { st with conn := (st.conn.recv 8).rest }) ∨
    (st.server.gClusterPoolInitialized = false ∧ ∃ bps spc,
      initRequest st.conn = some (bps, spc) ∧
      handleCommand2 k st =
        { Handled.answer k (initResponse k bps spc st.server st.driver)
            ⟨(initPools k bps spc st.server st.driver).1,
              (initPools k bps spc st.server st.driver).2, (st.conn.recv 8).rest⟩ with
          executed := some (.init bps spc) }) := by
  cases hflag : st.server.gClusterPoolInitialized with
  | true => exact Or.inl ⟨rfl, if_pos hflag⟩
  | false =>
      right
      have hopen : handleCommand2 k st = _ := if_neg (ne_true_of_eq_false hflag)
      by_cases hcount : (st.conn.recv 8).count = 8
      · right
        refine ⟨rfl, _, _, if_pos hcount, ?_⟩
        rw [hopen, if_neg (not_not.mpr hcount), executeInit_eq]
      · left
        exact ⟨rfl, if_neg hcount, hopen.trans (if_pos hcount)⟩

/-! ## DEINIT -/

/-- The two pools after a DEINIT. -/
def deinitPools (k : Answers) (server : Pool) (driver : Driver) : Pool × Driver :=
  match deinitializePool k.user server, psvemmcDeinitialize k.kernel driver with
  | (_, server), (_, driver) => (server, driver)

/-- The response to a DEINIT. -/
def deinitResponse (k : Answers) (server : Pool) (driver : Driver) : Response :=
  { command := Command.deinit.code, vitaErr := (deinitializePool k.user server).1,
    proxyErr := Prod.fst <| psvemmcDeinitialize k.kernel driver }

/-- DEINIT is refused at the flag or goes to both pools. -/
theorem handleCommand3_cases (k : Answers) (st : St) :
    (st.server.gClusterPoolInitialized = false ∧ handleCommand3 k st =
      Handled.refuse k (-2) { command := Command.deinit.code, vitaErr := -2 } st) ∨
    (st.server.gClusterPoolInitialized = true ∧ handleCommand3 k st =
      { Handled.answer k (deinitResponse k st.server st.driver)
          ⟨(deinitPools k st.server st.driver).1, (deinitPools k st.server st.driver).2,
            st.conn⟩ with
        executed := some .deinit }) := by
  cases hflag : st.server.gClusterPoolInitialized with
  | false => exact Or.inl ⟨rfl, if_pos hflag⟩
  | true => exact Or.inr ⟨rfl, if_neg (ne_false_of_eq_true hflag)⟩

/-! ## One round -/

theorem pollState_of_none {k : Answers} {st : St} (h : nextCommand st.conn = none) :
    pollState k st = st.afterWord := by
  simp only [pollState, poll, h]

theorem pollState_of_some {k : Answers} {st : St} {c : Command}
    (h : nextCommand st.conn = some c) : pollState k st = (handle c k st.afterWord).st := by
  simp only [pollState, poll, h]

/-- What a round does to the pools: nothing, an INIT or a DEINIT. -/
theorem round_cases (k : Answers) (st : St) :
    st.SameControl (pollState k st) ∨
    (nextCommand st.conn = some .init ∧ st.server.gClusterPoolInitialized = false ∧
      ∃ bps spc, initRequest st.afterWord.conn = some (bps, spc) ∧
        (pollState k st).server = (initPools k bps spc st.server st.driver).1 ∧
        (pollState k st).driver = (initPools k bps spc st.server st.driver).2) ∨
    (nextCommand st.conn = some .deinit ∧ st.server.gClusterPoolInitialized = true ∧
      (pollState k st).server = (deinitPools k st.server st.driver).1 ∧
      (pollState k st).driver = (deinitPools k st.server st.driver).2) := by
  cases hc : nextCommand st.conn with
  | none =>
      left
      rw [pollState_of_none hc]
      exact .of_eq rfl rfl
  | some c =>
      rw [pollState_of_some hc]
      by_cases hi : c = .init
      · subst hi
        rcases handleCommand2_cases k st.afterWord with
          ⟨_, h⟩ | ⟨_, _, h⟩ | ⟨hf, bps, spc, hreq, h⟩
        · left
          show st.SameControl (handleCommand2 k st.afterWord).st
          rw [h]
          exact .of_eq rfl rfl
        · left
          show st.SameControl (handleCommand2 k st.afterWord).st
          rw [h]
          exact .of_eq rfl rfl
        · right; left
          show _ ∧ _ ∧ ∃ bps spc, _ ∧ (handleCommand2 k st.afterWord).st.server = _ ∧
            (handleCommand2 k st.afterWord).st.driver = _
          rw [h]
          exact ⟨rfl, hf, bps, spc, hreq, rfl, rfl⟩
      · by_cases hd : c = .deinit
        · subst hd
          rcases handleCommand3_cases k st.afterWord with ⟨_, h⟩ | ⟨hf, h⟩
          · left
            show st.SameControl (handleCommand3 k st.afterWord).st
            rw [h]
            exact .of_eq rfl rfl
          · right; right
            show _ ∧ _ ∧ (handleCommand3 k st.afterWord).st.server = _ ∧
              (handleCommand3 k st.afterWord).st.driver = _
            rw [h]
            exact ⟨rfl, hf, rfl, rfl⟩
        · exact Or.inl (handle_sameControl hi hd k st.afterWord)

end PsvEmmc
