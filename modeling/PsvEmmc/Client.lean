/-
# `PsvEmmc.Client` — the client's requests and the dump of a partition

`client/psvemmc/psvemmc.cpp`: each `emmc_*` function sends one request struct
and receives the response, with one `recv` or in a loop, and closes the
socket on the way out of every failure but one.  `dump_partition` strings
them together: INIT, the whole clusters of the partition, the sectors that
are left, DEINIT.

The client runs against `Winsock`, the calls it makes over a world `σ` that
they read and change; a world is a network with a server behind it, or
whatever a theorem needs.  The loops of the source end only when all bytes
have come or `recv` fails, so a function with a loop takes `fuel`, the number
of `recv` calls it may make for one response, and `none` means that it was
still in the loop.

A field of a response is a `uint32_t` here, so `vita_err < 0` compares
unsigned words.
-/
import PsvEmmc.Protocol
import PsvEmmc.Lib.Memory

namespace PsvEmmc

open Words Memory

/-! ## Winsock -/

def socketError : Int := -1

/-- The calls of the client's functions. -/
structure Winsock (σ : Type) where
  send : List UInt8 → σ → Int × σ
  /-- `none` is `SOCKET_ERROR`; otherwise the bytes, as many as the call returns. -/
  recv : Nat → σ → Option (List UInt8) × σ
  closesocket : σ → σ
  wsaCleanup : σ → σ
  /-- What the stack holds where a response struct is declared. -/
  residue : σ → Mem

variable {σ : Type}

/-- `closesocket(socket); WSACleanup();` -/
def Winsock.giveUp (w : Winsock σ) (s : σ) : σ := w.wsaCleanup (w.closesocket s)

/-! ## Requests with a response in one receive -/

/-- Send a request and receive a response struct of `size` bytes with one call: the struct
afterwards, or `none` when a call failed. -/
def exchange (w : Winsock σ) (request : Request) (size : Nat) (s : σ) :
    Option (List UInt8) × σ :=
  let (iResult, s) := w.send request.encode s
  if iResult = socketError then (none, w.giveUp s)
  else
    match w.recv size s with
    | (none, s) => (none, w.giveUp s)
    | (some bytes, s) => (some (overlay (load (w.residue s) 0 size) bytes), s)

/-- The check that ping, INIT and DEINIT share. -/
def CommandResponseBase.rejects (c : Command) (base : CommandResponseBase) : Bool :=
  base.command ≠ c.code.toUInt32 || base.vitaErr < 0 || base.proxyErr < 0

def emmcPing (w : Winsock σ) (s : σ) : Int × σ :=
  match exchange w .ping 22 s with
  | (none, s) => (-1, s)
  | (some resp0, s) =>
      if (CommandResponseBase.decode resp0).rejects .ping then (-1, w.giveUp s)
      else if (resp0.drop 12).take 10 ≠ emmcProxyData then (-1, s)
      else (0, s)

def emmcInit (w : Winsock σ) (bytesPerSector sectorsPerCluster : Int32) (s : σ) : Int × σ :=
  match exchange w (.init bytesPerSector sectorsPerCluster) 12 s with
  | (none, s) => (-1, s)
  | (some resp2, s) =>
      if (CommandResponseBase.decode resp2).rejects .init then (-1, w.giveUp s)
      else (0, s)

def emmcDeinit (w : Winsock σ) (s : σ) : Int × σ :=
  match exchange w .deinit 12 s with
  | (none, s) => (-1, s)
  | (some resp3, s) =>
      if (CommandResponseBase.decode resp3).rejects .deinit then (-1, w.giveUp s)
      else (0, s)

/-! ## Reads -/

/-- `while(bytesToReceive != bytesWereReceived)` with `need` bytes to go. -/
def recvLoop (w : Winsock σ) : Nat → Nat → σ → Option (Option (List UInt8) × σ)
  | _, 0, s => some (some [], s)
  | 0, _ + 1, _ => none
  | fuel + 1, need + 1, s =>
      match w.recv (need + 1) s with
      | (none, s) => some (none, w.giveUp s)
      | (some bytes, s) =>
          match recvLoop w fuel (need + 1 - bytes.length) s with
          | some (some more, s) => some (some (bytes ++ more), s)
          | r => r

/-- The check that the six reads share: here `proxy_err` must be zero. -/
def CommandResponseBase.rejectsRead (c : Command) (base : CommandResponseBase) : Bool :=
  base.command ≠ c.code.toUInt32 || base.vitaErr < 0 || base.proxyErr ≠ 0

/-- `emmc_read_sector` and its `_ms` and `_gc` forms: the return value, the bytes placed in the
caller's buffer, and the world. -/
def emmcReadSectorOn (dev : Device) (w : Winsock σ) (fuel : Nat) (sector : Int32) (s : σ) :
    Option (Int × List UInt8 × σ) :=
  let (iResult, s) := w.send (Request.readSector dev sector).encode s
  if iResult = socketError then some (-1, [], w.giveUp s)
  else
    match recvLoop w fuel (12 + 0x200) s with
    | none => none
    | some (none, s) => some (-1, [], s)
    | some (some resp4, s) =>
        if (CommandResponseBase.decode resp4).rejectsRead (.readSector dev) then
          some (-1, [], w.giveUp s)
        else some (0, resp4.drop 12, s)

def emmcReadSector (w : Winsock σ) := emmcReadSectorOn .emmc w
def emmcReadSectorMs (w : Winsock σ) := emmcReadSectorOn .ms w
def emmcReadSectorGc (w : Winsock σ) := emmcReadSectorOn .gc w

/-- `emmc_read_cluster` and its `_ms` and `_gc` forms: the header with one receive, then
`expectedSize` bytes straight into the caller's buffer, and only then the check. -/
def emmcReadClusterOn (dev : Device) (w : Winsock σ) (fuel : Nat) (cluster : Int32)
    (expectedSize : Nat) (s : σ) : Option (Int × List UInt8 × σ) :=
  match exchange w (.readCluster dev cluster) 12 s with
  | (none, s) => some (-1, [], s)
  | (some resp5, s) =>
      match recvLoop w fuel expectedSize s with
      | none => none
      | some (none, s) => some (-1, [], s)
      | some (some data, s) =>
          if (CommandResponseBase.decode resp5).rejectsRead (.readCluster dev) then
            some (-1, data, w.giveUp s)
          else some (0, data, s)

def emmcReadCluster (w : Winsock σ) := emmcReadClusterOn .emmc w
def emmcReadClusterMs (w : Winsock σ) := emmcReadClusterOn .ms w
def emmcReadClusterGc (w : Winsock σ) := emmcReadClusterOn .gc w

/-! ## The dump of a partition -/

/-- `DUMP_MODE_EMMC`, `DUMP_MODE_MS` and `DUMP_MODE_GC`. -/
def Device.dumpMode : Device → Int32
  | .emmc => 0
  | .ms => 1
  | .gc => 2

/-- `read_sector`. -/
def readSectorMode (w : Winsock σ) (fuel : Nat) (dumpMode sector : Int32) (s : σ) :
    Option (Int × List UInt8 × σ) :=
  match dumpMode.toInt with
  | 0 => emmcReadSector w fuel sector s
  | 1 => emmcReadSectorMs w fuel sector s
  | 2 => emmcReadSectorGc w fuel sector s
  | _ => some (-1, [], s)

/-- `read_cluster`. -/
def readClusterMode (w : Winsock σ) (fuel : Nat) (dumpMode cluster : Int32) (expectedSize : Nat)
    (s : σ) : Option (Int × List UInt8 × σ) :=
  match dumpMode.toInt with
  | 0 => emmcReadCluster w fuel cluster expectedSize s
  | 1 => emmcReadClusterMs w fuel cluster expectedSize s
  | 2 => emmcReadClusterGc w fuel cluster expectedSize s
  | _ => some (-1, [], s)

@[simp] theorem readSectorMode_dumpMode (w : Winsock σ) (fuel : Nat) (dev : Device)
    (sector : Int32) (s : σ) :
    readSectorMode w fuel dev.dumpMode sector s = emmcReadSectorOn dev w fuel sector s := by
  cases dev <;> rfl

@[simp] theorem readClusterMode_dumpMode (w : Winsock σ) (fuel : Nat) (dev : Device)
    (cluster : Int32) (expectedSize : Nat) (s : σ) :
    readClusterMode w fuel dev.dumpMode cluster expectedSize s =
      emmcReadClusterOn dev w fuel cluster expectedSize s := by
  cases dev <;> rfl

/-- The two fields of a partition's entry that the dump reads, in sectors. -/
structure PartitionEntry where
  partitionOffset : UInt32
  partitionSize : UInt32

/-- Either loop of `dump_partition`, from round `i` on with `n` rounds to go: whether it ended
without a failed read, the bytes written to the file, and the world. -/
def dumpLoop (read : Int32 → σ → Option (Int × List UInt8 × σ)) (offset : Int32) :
    Nat → Nat → σ → Option (Bool × List UInt8 × σ)
  | _, 0, s => some (true, [], s)
  | i, n + 1, s =>
      match read (offset + Int32.ofNat i) s with
      | none => none
      | some (ret, data, s) =>
          if ret < 0 then some (false, [], s)
          else
            match dumpLoop read offset (i + 1) n s with
            | none => none
            | some (ok, more, s) => some (ok, data ++ more, s)

/-- What `dump_partition` leaves: its return value, `none` when control reaches the end of the
function, which has no return statement there; the bytes written to the file; the world. -/
structure Dump (σ : Type) where
  ret : Option Int
  written : List UInt8
  world : σ

def sectorsPerCluster : Int32 := 8

def dumpPartition (w : Winsock σ) (fuel : Nat) (dumpMode : Int32) (partition : PartitionEntry)
    (s : σ) : Option (Dump σ) :=
  match emmcInit w sdDefaultSectorSize sectorsPerCluster s with
  | (iResult, s) =>
      if iResult < 0 then some ⟨some (-1), [], s⟩
      else
        let nClustersToRead := (partition.partitionSize / sectorsPerCluster.toUInt32).toInt32
        let nSectorsToRead := (partition.partitionSize % sectorsPerCluster.toUInt32).toInt32
        let clusterOffset := (partition.partitionOffset / sectorsPerCluster.toUInt32).toInt32
        let tailOffset :=
          (partition.partitionOffset + (nClustersToRead * sectorsPerCluster).toUInt32).toInt32
        let clusterDataSize := (sdDefaultSectorSize * sectorsPerCluster).toUInt32.toNat
        match dumpLoop (fun cluster => readClusterMode w fuel dumpMode cluster clusterDataSize)
            clusterOffset 0 nClustersToRead.toUInt32.toNat s with
        | none => none
        | some (false, written, s) => some ⟨some (-1), written, s⟩
        | some (true, clusters, s) =>
            match dumpLoop (readSectorMode w fuel dumpMode) tailOffset 0
                nSectorsToRead.toUInt32.toNat s with
            | none => none
            | some (false, sectors, s) => some ⟨some (-1), clusters ++ sectors, s⟩
            | some (true, sectors, s) =>
                match emmcDeinit w s with
                | (iResult, s) =>
                    if iResult < 0 then some ⟨some (-1), clusters ++ sectors, s⟩
                    else some ⟨none, clusters ++ sectors, s⟩

end PsvEmmc
