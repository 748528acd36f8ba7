/-
# `PsvEmmc.Server` — the sixteen handlers and the loop that calls them

`server/src/main.c`: `receive_commands` reads a command word and calls
`handle_command_0` to `handle_command_15`, each of which receives the rest of
its request, calls the kernel module and sends a response.

A handler is a function of the state `St` (the server's pool globals, the
kernel module, the bytes still to come on the connection) and of `Answers`,
what the two kernels and the network answer while it runs.  Besides the
return value, the state and the bytes the socket accepted, a `Handled`
records what a theorem about the handler speaks of: the response struct as
it was last handed to `sceNetSend`, the request at the point where the source
prints "execute command", and the bytes that went through `g_clusterPoolPtr`.

Handlers of one kind have one text for the three devices, so a kind is one
definition and `handleCommand4` to `handleCommand15` are its instances.
-/
import PsvEmmc.Driver
import PsvEmmc.Lib.Stream

namespace PsvEmmc

open Words Memory Stream

/-! ## State, answers and results -/

structure St where
  server : Pool
  driver : Driver
  conn : Inbound

/-- What the environment answers while one request is handled. -/
structure Answers where
  /-- `sceKernelAllocMemBlock`, `sceKernelGetMemBlockBase`, `sceKernelFreeMemBlock`. -/
  user : PoolAnswers
  kernel : DriverAnswers
  /-- The calls of `sceNetSend`, in order. -/
  accept : Nat → Int

/-- No kernel call fails, on either side. -/
structure Answers.Succeeds (k : Answers) : Prop where
  user : k.user.Succeeds
  kernel : k.kernel.Succeeds

/-- Every call succeeds, every storage read gives zeros and every send is accepted whole. -/
def Answers.succeed : Answers where
  user := .grant 0x10000
  kernel := .succeed
  accept := fun _ => 2 ^ 31 - 1

theorem Answers.succeed_succeeds : Answers.succeed.Succeeds :=
  ⟨PoolAnswers.grant_succeeds _, DriverAnswers.succeed_succeeds⟩

structure Handled where
  ret : Int
  resp : Response
  sent : List UInt8
  executed : Option Request := none
  /-- Bytes sent from or received into the pool. -/
  touched : List Access := []
  /-- Bytes the kernel module copied into the pool. -/
  copied : List Access := []
  st : St

/-- `sceNetSend(_cli_sock, &resp, sizeof(resp), 0); return code;` -/
def Handled.refuse (k : Answers) (code : Int) (resp : Response) (st : St) : Handled :=
  { ret := code, resp := resp, sent := (send (k.accept 0) resp.encode).2, st := st }

/-- `return sceNetSend(_cli_sock, &resp, sizeof(resp), 0);` -/
def Handled.answer (k : Answers) (resp : Response) (st : St) : Handled :=
  let (ret, sent) := send (k.accept 0) resp.encode
  { ret := ret, resp := resp, sent := sent, st := st }

/-! ## Ping and terminate -/

/-- `handle_command_0` and `handle_command_1` differ in the command word only. -/
def handleHello (c : Command) (r : Request) (k : Answers) (st : St) : Handled :=
  let resp : Response := { command := c.code, data := emmcProxyData }
  { Handled.answer k resp st with executed := some r }

def handleCommand0 := handleHello .ping .ping
def handleCommand1 := handleHello .term .term

/-! ## Initialize and deinitialize -/

def initializePool := poolInit
def deinitializePool := poolDeinit

/-- `handle_command_2` from "execute command 2" on. -/
def executeInit (bytesPerSector sectorsPerCluster : Int32) (k : Answers) (st : St) : Handled :=
  let resp : Response := { command := Command.init.code }
  let request := Request.init bytesPerSector sectorsPerCluster
  let (vitaErr, server) := initializePool k.user bytesPerSector sectorsPerCluster st.server
  let resp := { resp with vitaErr := vitaErr }
  let st := { st with server := server }
  if vitaErr ≠ 0 then
    { Handled.answer k resp st with executed := some request }
  else
    let (proxyErr, driver) := psvemmcInitialize k.kernel bytesPerSector sectorsPerCluster st.driver
    let resp := { resp with proxyErr := proxyErr }
    let st := { st with driver := driver }
    { Handled.answer k resp st with executed := some request }

def handleCommand2 (k : Answers) (st : St) : Handled :=
  let resp : Response := { command := Command.init.code }
  if st.server.gClusterPoolInitialized then
    Handled.refuse k (-2) { resp with vitaErr := -2 } st
  else
    let r := st.conn.recv 8
    let st := { st with conn := r.rest }
    if r.count ≠ 8 then
      Handled.refuse k (-1) { resp with vitaErr := -1 } st
    else
      executeInit (ofLeInt r.bytes) (ofLeInt (r.bytes.drop 4)) k st

/-- `handle_command_3` from "execute command 3" on.  The module goes first, and the server's
pool is freed whatever it answers. -/
def executeDeinit (k : Answers) (st : St) : Handled :=
  let resp : Response := { command := Command.deinit.code }
  let (proxyErr, driver) := psvemmcDeinitialize k.kernel st.driver
  let (vitaErr, server) := deinitializePool k.user st.server
  let resp := { resp with proxyErr := proxyErr, vitaErr := vitaErr }
  { Handled.answer k resp { st with driver := driver, server := server } with
    executed := some .deinit }

def handleCommand3 (k : Answers) (st : St) : Handled :=
  let resp : Response := { command := Command.deinit.code }
  if st.server.gClusterPoolInitialized = false then
    Handled.refuse k (-2) { resp with vitaErr := -2 } st
  else
    executeDeinit k st

/-! ## Sectors -/

/-- `handle_command_4`, `handle_command_8` and `handle_command_12` once the request is there. -/
def executeReadSector (dev : Device) (sector : Int32) (k : Answers) (st : St) : Handled :=
  let (proxyErr, data) := readSectorOn dev k.kernel sector (Vector.replicate 0x200 0) st.driver
  let resp : Response :=
    { command := (Command.readSector dev).code, proxyErr := proxyErr, data := data.toList }
  let (ok, sent) := sendAll k.accept 0 resp.encode
  { ret := if ok then 0 else -1, resp := resp, sent := sent,
    executed := some (.readSector dev sector), st := st }

def handleReadSector (dev : Device) (k : Answers) (st : St) : Handled :=
  let resp : Response :=
    { command := (Command.readSector dev).code, data := List.replicate 0x200 0 }
  let r := st.conn.recv 4
  let st := { st with conn := r.rest }
  if r.count ≠ 4 then
    Handled.refuse k (-1) { resp with vitaErr := -1 } st
  else
    executeReadSector dev (ofLeInt r.bytes) k st

/-- `handle_command_6`, `handle_command_10` and `handle_command_14` once the request is there. -/
def executeWriteSector (dev : Device) (sector : Int32) (data : Sector) (k : Answers) (st : St) :
    Handled :=
  let resp : Response :=
    { command := (Command.writeSector dev).code,
      proxyErr := writeSectorOn dev sector data st.driver }
  { Handled.answer k resp st with executed := some (.writeSector dev sector data) }

def handleWriteSector (dev : Device) (k : Answers) (st : St) : Handled :=
  let resp : Response := { command := (Command.writeSector dev).code }
  let (ok, bytes, conn) := st.conn.recvAll (4 + 0x200)
  let st := { st with conn := conn }
  if ok = false then
    Handled.refuse k (-1) { resp with vitaErr := -1 } st
  else
    executeWriteSector dev (ofLeInt bytes) (Sector.ofList (bytes.drop 4)) k st

/-! ## Clusters -/

/-- `handle_command_5`, `handle_command_9` and `handle_command_13` once the request is there. -/
def executeReadCluster (dev : Device) (cluster : Int32) (k : Answers) (st : St) : Handled :=
  let ptr := st.server.gClusterPoolPtr
  let (proxyErr, data, driver) := readClusterOn dev k.kernel cluster st.driver
  let mem := match data with
    | some bytes => store st.server.mem ptr bytes
    | none => st.server.mem
  let st := { st with server := { st.server with mem := mem }, driver := driver }
  let resp : Response := { command := (Command.readCluster dev).code, proxyErr := proxyErr }
  -- The header's send is not looked at.
  let header := (send (k.accept 0) resp.encode).2
  let (ok, sent) := sendAll k.accept 1 (load mem ptr st.server.clusterBytes)
  { ret := if ok then 0 else -1, resp := resp, sent := header ++ sent,
    executed := some (.readCluster dev cluster),
    touched := [⟨ptr, sent.length⟩],
    copied := data.toList.map (fun bytes => ⟨ptr, bytes.length⟩), st := st }

/-- The module's cluster arrives in the server's pool. -/
theorem executeReadCluster_mem {dev : Device} {cluster : Int32} {k : Answers} {st : St}
    {bytes : List UInt8} (h : (readClusterOn dev k.kernel cluster st.driver).2.1 = some bytes) :
    (executeReadCluster dev cluster k st).st.server.mem =
      store st.server.mem st.server.gClusterPoolPtr bytes := by
  simp only [executeReadCluster, h]

def handleReadCluster (dev : Device) (k : Answers) (st : St) : Handled :=
  let resp : Response := { command := (Command.readCluster dev).code }
  let r := st.conn.recv 4
  let st := { st with conn := r.rest }
  if r.count ≠ 4 then
    Handled.refuse k (-1) { resp with vitaErr := -1 } st
  else
    executeReadCluster dev (ofLeInt r.bytes) k st

/-- `handle_command_7`, `handle_command_11` and `handle_command_15` once the payload is in the
pool. -/
def executeWriteCluster (dev : Device) (cluster : Int32) (k : Answers) (st : St) : Handled :=
  let ptr := st.server.gClusterPoolPtr
  let data := load st.server.mem ptr st.server.clusterBytes
  let resp : Response :=
    { command := (Command.writeCluster dev).code,
      proxyErr := writeClusterOn dev cluster data st.driver }
  { Handled.answer k resp st with
    executed := some (.writeCluster dev cluster data), touched := [⟨ptr, data.length⟩] }

def handleWriteCluster (dev : Device) (k : Answers) (st : St) : Handled :=
  let resp : Response := { command := (Command.writeCluster dev).code }
  let r := st.conn.recv 4
  let st := { st with conn := r.rest }
  if r.count ≠ 4 then
    Handled.refuse k (-1) { resp with vitaErr := -1 } st
  else
    let ptr := st.server.gClusterPoolPtr
    let (ok, bytes, conn) := st.conn.recvAll st.server.clusterBytes
    let st :=
      { st with conn := conn, server := { st.server with mem := store st.server.mem ptr bytes } }
    if ok = false then
      { Handled.refuse k (-1) { resp with vitaErr := -1 } st with touched := [⟨ptr, bytes.length⟩] }
    else
      executeWriteCluster dev (ofLeInt r.bytes) k st

def handleCommand4 := handleReadSector .emmc
def handleCommand5 := handleReadCluster .emmc
def handleCommand6 := handleWriteSector .emmc
def handleCommand7 := handleWriteCluster .emmc

def handleCommand8 := handleReadSector .ms
def handleCommand9 := handleReadCluster .ms
def handleCommand10 := handleWriteSector .ms
def handleCommand11 := handleWriteCluster .ms

def handleCommand12 := handleReadSector .gc
def handleCommand13 := handleReadCluster .gc
def handleCommand14 := handleWriteSector .gc
def handleCommand15 := handleWriteCluster .gc

/-! ## The command loop -/

/-- The `switch` in `receive_commands`. -/
def handle : Command → Answers → St → Handled
  | .ping => handleCommand0
  | .term => handleCommand1
  | .init => handleCommand2
  | .deinit => handleCommand3
  | .readSector .emmc => handleCommand4
  | .readCluster .emmc => handleCommand5
  | .writeSector .emmc => handleCommand6
  | .writeCluster .emmc => handleCommand7
  | .readSector .ms => handleCommand8
  | .readCluster .ms => handleCommand9
  | .writeSector .ms => handleCommand10
  | .writeCluster .ms => handleCommand11
  | .readSector .gc => handleCommand12
  | .readCluster .gc => handleCommand13
  | .writeSector .gc => handleCommand14
  | .writeCluster .gc => handleCommand15

@[simp] theorem handle_readSector (dev : Device) :
    handle (.readSector dev) = handleReadSector dev := by
  cases dev <;> rfl

@[simp] theorem handle_readCluster (dev : Device) :
    handle (.readCluster dev) = handleReadCluster dev := by
  cases dev <;> rfl

@[simp] theorem handle_writeSector (dev : Device) :
    handle (.writeSector dev) = handleWriteSector dev := by
  cases dev <;> rfl

@[simp] theorem handle_writeCluster (dev : Device) :
    handle (.writeCluster dev) = handleWriteCluster dev := by
  cases dev <;> rfl

/-- The command that the next word announces, if a word comes and the `switch` knows it.
A word received short keeps the `0xFF` bytes of the preset `-1`. -/
def nextCommand (conn : Inbound) : Option Command :=
  let r := conn.recv 4
  if r.count ≤ 0 then none
  else Command.ofCode (ofLeInt (overlay (leInt (-1)) r.bytes))

/-- The state once the command word has been received. -/
def St.afterWord (st : St) : St := { st with conn := (st.conn.recv 4).rest }

/-- One round of the loop: the handler's result, or `none` when the loop returns before
calling one. -/
def poll (k : Answers) (st : St) : Option Handled :=
  match nextCommand st.conn with
  | some c => some (handle c k st.afterWord)
  | none => none

/-- The state after one round. -/
def pollState (k : Answers) (st : St) : St :=
  match poll k st with
  | some h => h.st
  | none => st.afterWord

/-- At most `fuel` rounds of `receive_commands`: the requests executed and the state. -/
def receiveLoop (ks : Nat → Answers) : Nat → Nat → St → List Request × St
  | 0, _, st => ([], st)
  | fuel + 1, i, st =>
      match poll (ks i) st with
      | none => ([], pollState (ks i) st)
      | some h =>
          if h.ret < 0 then (h.executed.toList, h.st)
          else
            let (rs, st') := receiveLoop ks fuel (i + 1) h.st
            (h.executed.toList ++ rs, st')

/-- `receive_commands` on a connection.  Every round takes at least one byte, so there are no
more rounds than bytes to come, and one more to see the end. -/
def receiveCommands (ks : Nat → Answers) (st : St) : List Request × St :=
  receiveLoop ks (st.conn.pending.length + 1) 0 st

/-! ## Runs of the system -/

/-- What can happen to the system: a client connects, the loop makes one round, or the
server application ends and is started again while the module stays loaded.  A round may
follow one that ended its connection, so there are more runs than the loop has. -/
inductive Event where
  | accept (conn : Inbound)
  | round (k : Answers)
  | restart

def noConnection : Inbound := ⟨[], 0, fun _ => 0⟩

def St.step (st : St) : Event → St
  | .accept conn => { st with conn := conn }
  | .round k => pollState k st
  | .restart => { st with server := {}, conn := noConnection }

/-- The system just started, with the three devices there. -/
def St.boot : St where
  server := {}
  driver := { gEmmcCtxInitialized := true, gGcCtxInitialized := true, gMsCtxInitialized := true }
  conn := noConnection

/-- A client that sends these requests and then nothing more. -/
def session (rs : List Request) : Inbound := Inbound.uncut (rs.flatMap Request.encode)

end PsvEmmc
