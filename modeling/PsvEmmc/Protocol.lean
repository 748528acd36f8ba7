/-
# `PsvEmmc.Protocol` — requests and responses as both programs lay them out

The client and the server declare the same packed structs twice.  A request
is a command word and its fields; a response is three words, `command`,
`vita_err` and `proxy_err`, and up to `0x200` bytes of data.  The server
declares the three words as `int`, the client as `uint32_t`: `Response` is
the server's struct and `CommandResponseBase` the client's.

The sixteen commands are four plain ones and four kinds for each of the
three devices, so a `Command` is a kind with its device and `code` is the
number the two headers define for it.
-/
import PsvEmmc.Lib.Words
import PsvEmmc.Lib.Slice

namespace PsvEmmc

open Words Slice

/-! ## Devices and sectors -/

/-- `SD_DEFAULT_SECTOR_SIZE`, as the programs compare it with an `int`. -/
def sdDefaultSectorSize : Int32 := 0x200

/-- One sector of `SD_DEFAULT_SECTOR_SIZE` bytes. -/
abbrev Sector := Vector UInt8 0x200

/-- A sector filled from the front of `bs`. -/
def Sector.ofList (bs : List UInt8) : Sector := Vector.ofFn fun i => bs.getD i 0

theorem Sector.ofList_toList (s : Sector) : Sector.ofList s.toList = s := by
  apply Vector.ext
  intro i hi
  simp [Sector.ofList, List.getD_eq_getElem?_getD]

@[simp] theorem Sector.length_toList (s : Sector) : s.toList.length = 0x200 := by simp

/-- The bytes of `n` sectors of a device from sector `start` on. -/
def sectorBytes (disk : List Sector) (start n : Nat) : List UInt8 :=
  (slice disk start n).flatMap Vector.toList

theorem sectorBytes_add (disk : List Sector) (start m n : Nat) :
    sectorBytes disk start (m + n) =
      sectorBytes disk start m ++ sectorBytes disk (start + m) n := by
  rw [sectorBytes, slice_add, List.flatMap_append]
  rfl

theorem length_sectorBytes {disk : List Sector} {start n : Nat} (h : start + n ≤ disk.length) :
    (sectorBytes disk start n).length = 0x200 * n := by
  have hlen : ∀ xs : List Sector, (xs.flatMap Vector.toList).length = 0x200 * xs.length := by
    intro xs
    induction xs with
    | nil => rfl
    | cons x xs ih =>
        rw [List.flatMap_cons, List.length_append, ih, Sector.length_toList, List.length_cons]
        omega
  rw [sectorBytes, hlen, length_slice h]

/-- Equal bytes are equal sectors. -/
theorem sectorBytes_inj {disk : List Sector} {a b n : Nat} :
    sectorBytes disk a n = sectorBytes disk b n ↔ slice disk a n = slice disk b n := by
  constructor
  · intro h
    exact flatMap_injective (by decide) Sector.length_toList (fun _ _ => Vector.toList_inj.mp) h
  · intro h
    rw [sectorBytes, sectorBytes, h]

/-- Internal eMMC, memory card and game card. -/
inductive Device where
  | emmc
  | ms
  | gc
  deriving DecidableEq, Repr

/-! ## Commands -/

inductive Command where
  | ping
  | term
  | init
  | deinit
  | readSector (dev : Device)
  | readCluster (dev : Device)
  | writeSector (dev : Device)
  | writeCluster (dev : Device)
  deriving DecidableEq, Repr

/-- The `PSVEMMC_COMMAND_*` constants. -/
def Command.code : Command → Int32
  | .ping => 0
  | .term => 1
  | .init => 2
  | .deinit => 3
  | .readSector .emmc => 4
  | .readCluster .emmc => 5
  | .writeSector .emmc => 6
  | .writeCluster .emmc => 7
  | .readSector .ms => 8
  | .readCluster .ms => 9
  | .writeSector .ms => 10
  | .writeCluster .ms => 11
  | .readSector .gc => 12
  | .readCluster .gc => 13
  | .writeSector .gc => 14
  | .writeCluster .gc => 15

/-- The labels of the `switch` in `receive_commands`; `none` is its `default`. -/
def Command.ofCode (code : Int32) : Option Command :=
  match code.toInt with
  | 0 => some .ping
  | 1 => some .term
  | 2 => some .init
  | 3 => some .deinit
  | 4 => some (.readSector .emmc)
  | 5 => some (.readCluster .emmc)
  | 6 => some (.writeSector .emmc)
  | 7 => some (.writeCluster .emmc)
  | 8 => some (.readSector .ms)
  | 9 => some (.readCluster .ms)
  | 10 => some (.writeSector .ms)
  | 11 => some (.writeCluster .ms)
  | 12 => some (.readSector .gc)
  | 13 => some (.readCluster .gc)
  | 14 => some (.writeSector .gc)
  | 15 => some (.writeCluster .gc)
  | _ => none

theorem Command.ofCode_code (c : Command) : Command.ofCode c.code = some c := by
  cases c with
  | ping => rfl
  | term => rfl
  | init => rfl
  | deinit => rfl
  | readSector dev => cases dev <;> rfl
  | readCluster dev => cases dev <;> rfl
  | writeSector dev => cases dev <;> rfl
  | writeCluster dev => cases dev <;> rfl

theorem Command.ofCode_neg {code : Int32} (h : code.toInt < 0) : Command.ofCode code = none := by
  unfold Command.ofCode
  split <;> first | omega | rfl

/-! ## Requests -/

/-- A request with all its fields. -/
inductive Request where
  | ping
  | term
  | init (bytesPerSector sectorsPerCluster : Int32)
  | deinit
  | readSector (dev : Device) (sector : Int32)
  | readCluster (dev : Device) (cluster : Int32)
  | writeSector (dev : Device) (sector : Int32) (data : Sector)
  | writeCluster (dev : Device) (cluster : Int32) (data : List UInt8)
  deriving DecidableEq

namespace Request

def command : Request → Command
  | .ping => .ping
  | .term => .term
  | .init _ _ => .init
  | .deinit => .deinit
  | .readSector dev _ => .readSector dev
  | .readCluster dev _ => .readCluster dev
  | .writeSector dev _ _ => .writeSector dev
  | .writeCluster dev _ _ => .writeCluster dev

/-- The bytes after the command word that the handler takes with one receive. -/
def fields : Request → List UInt8
  | .init bytesPerSector sectorsPerCluster => leInt bytesPerSector ++ leInt sectorsPerCluster
  | .readSector _ sector => leInt sector
  | .readCluster _ cluster => leInt cluster
  | .writeCluster _ cluster _ => leInt cluster
  | _ => []

/-- The bytes after those, which the handler takes in a loop. -/
def payload : Request → List UInt8
  | .writeSector _ sector data => leInt sector ++ data.toList
  | .writeCluster _ _ data => data
  | _ => []

/-- The request on the wire. -/
def encode (r : Request) : List UInt8 := leInt r.command.code ++ (r.fields ++ r.payload)

/-- The bytes on the wire are those of one request only. -/
theorem encode_injective : Function.Injective encode := by
  intro r₁ r₂ h
  obtain ⟨hcode, hrest⟩ := leInt_append_inj.mp h
  have hcommand : r₁.command = r₂.command := by
    rw [← Option.some_inj, ← Command.ofCode_code, ← Command.ofCode_code, hcode]
  cases r₁ with
  | ping => cases r₂ <;> first | rfl | cases hcommand
  | term => cases r₂ <;> first | rfl | cases hcommand
  | deinit => cases r₂ <;> first | rfl | cases hcommand
  | init a b =>
      cases r₂ <;> cases hcommand
      simp only [fields, payload, List.append_nil] at hrest
      obtain ⟨rfl, hb⟩ := leInt_append_inj.mp hrest
      rw [← ofLeInt_leInt b, hb, ofLeInt_leInt]
  | readSector dev a =>
      cases r₂ <;> cases hcommand
      rw [(leInt_append_inj.mp hrest).1]
  | readCluster dev a =>
      cases r₂ <;> cases hcommand
      rw [(leInt_append_inj.mp hrest).1]
  | writeSector dev a data =>
      cases r₂ <;> cases hcommand
      obtain ⟨rfl, hdata⟩ := leInt_append_inj.mp hrest
      rw [Vector.toList_inj.mp hdata]
  | writeCluster dev a data =>
      cases r₂ <;> cases hcommand
      obtain ⟨rfl, rfl⟩ := leInt_append_inj.mp hrest
      rfl

end Request

/-! ## Responses -/

/-- The server's response struct; `data` is empty where the struct has no such field. -/
structure Response where
  command : Int32
  vitaErr : Int32 := 0
  proxyErr : Int32 := 0
  data : List UInt8 := []
  deriving DecidableEq

/-- The response on the wire. -/
def Response.encode (r : Response) : List UInt8 :=
  leInt r.command ++ (leInt r.vitaErr ++ (leInt r.proxyErr ++ r.data))

@[simp] theorem Response.length_encode (r : Response) : r.encode.length = 12 + r.data.length := by
  simp only [Response.encode, List.length_append, length_leInt]
  omega

/-- The data follows the three words. -/
theorem Response.drop_encode (r : Response) : r.encode.drop 12 = r.data := by
  rw [show (12 : Nat) = 4 + 4 + 4 from rfl, ← List.drop_drop, ← List.drop_drop]
  simp only [Response.encode, drop_four_leInt_append]

/-- `memcpy(resp.data, "emmcproxy", 9)` into ten zeroed bytes. -/
def emmcProxyData : List UInt8 := [101, 109, 109, 99, 112, 114, 111, 120, 121, 0]

/-- `command_response_base`: the first three words of a response as the client declares them. -/
structure CommandResponseBase where
  command : UInt32
  vitaErr : UInt32
  proxyErr : UInt32
  deriving DecidableEq, Repr

def CommandResponseBase.decode (bs : List UInt8) : CommandResponseBase :=
  { command := ofLe32 bs, vitaErr := ofLe32 (bs.drop 4), proxyErr := ofLe32 (bs.drop 8) }

/-- The client reads the words the server wrote, as unsigned ones. -/
theorem CommandResponseBase.decode_encode (r : Response) :
    CommandResponseBase.decode r.encode =
      ⟨r.command.toUInt32, r.vitaErr.toUInt32, r.proxyErr.toUInt32⟩ := by
  rw [CommandResponseBase.decode, show (8 : Nat) = 4 + 4 from rfl, ← List.drop_drop]
  simp only [Response.encode, drop_four_leInt_append, ofLe32_leInt_append]

end PsvEmmc
