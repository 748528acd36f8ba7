/-
# `PsvEmmc.Client.Device` — the MBR and the partition to dump

`dump_device` declares a `MBR`, has `parse_sce_mbr` fill it from sector 0 and
looks at the type of the entry that the user asked for.  It does not look at
what `parse_sce_mbr` returned, so after a read that failed the entry is what
the stack held there, and after a header that was refused it is the entry of
whatever the sector holds.  The index comes from `parseArgs`, which bounds it
from above only: `mbr.partitions[-1]` is read in front of the table.

So memory is modelled where it matters, as the bytes around `mbr` by their
distance from its first byte (`Frame`).
-/
import PsvEmmc.Client.Network

namespace PsvEmmc

open Words Memory Slice

variable {Addr σ : Type}

/-! ## The arguments -/

/-- `NPartitions`. -/
def nPartitions : Int32 := 20

/-- The out-parameters of `parseArgs`. -/
structure Args where
  dumpMode : Int32
  dumpPartitionIndex : Int32
  dumpFilePath : String
  deriving DecidableEq

/-- `parseArgs`, over `boost::lexical_cast<int>`: `none` where a cast throws, `some none` for
`-1`, and the out-parameters for `0`. -/
def parseArgs (lexicalCast : String → Option Int32) (argv : List String) :
    Option (Option Args) :=
  match argv with
  | _ :: arg1 :: arg2 :: arg3 :: _ =>
      match lexicalCast arg1 with
      | none => none
      | some dumpMode =>
          match lexicalCast arg2 with
          | none => none
          | some dumpPartitionIndex =>
              if 3 ≤ dumpMode then some none
              else if nPartitions ≤ dumpPartitionIndex then some none
              else some (some ⟨dumpMode, dumpPartitionIndex, arg3⟩)
  | _ => some none

/-- What `parseArgs` lets through. -/
theorem parseArgs_bounds {lexicalCast : String → Option Int32} {argv : List String} {args : Args}
    (hargs : parseArgs lexicalCast argv = some (some args)) :
    args.dumpMode < 3 ∧ args.dumpPartitionIndex < nPartitions := by
  unfold parseArgs at hargs
  split at hargs
  · split at hargs
    · cases hargs
    · split at hargs
      · cases hargs
      · split at hargs
        · cases hargs
        · rename_i hmode
          split at hargs
          · cases hargs
          · rename_i hindex
            cases hargs
            exact ⟨Int32.not_le.mp hmode, Int32.not_le.mp hindex⟩
  · cases hargs

/-! ## The MBR -/

/-- `SCEHeader`, "Sony Computer Entertainment Inc." -/
def sceHeader : List UInt8 :=
  [83, 111, 110, 121, 32, 67, 111, 109, 112, 117, 116, 101, 114, 32, 69, 110,
   116, 101, 114, 116, 97, 105, 110, 109, 101, 110, 116, 32, 73, 110, 99, 46]

/-- `validateSceMbr`, of the bytes of a `MBR`. -/
def validateSceMbr (mbr : List UInt8) : Int :=
  -- No byte of the header is zero, so `strncmp` compares all of them.
  if mbr.take 0x20 ≠ sceHeader then -1
  else if ofLe32 (mbr.drop 0x20) ≠ 3 then -1
  -- The signature is the last two bytes.
  else if ofLe32 (mbr.drop 0x1FE) ≠ 0xAA55 then -1
  else 0

/-- The bytes around a local variable, by their distance from its first byte. -/
abbrev Frame := Int → UInt8

namespace Frame

/-- The first `n` bytes of the variable. -/
def load (m : Frame) (n : Nat) : List UInt8 := (List.range n).map fun i : Nat => m i

/-- `memcpy` of `bs` to the variable. -/
def copy (m : Frame) (bs : List UInt8) : Frame :=
  fun a => if 0 ≤ a ∧ a < bs.length then bs.getD a.toNat 0 else m a

/-- A `uint32_t` at `a`. -/
def word (m : Frame) (a : Int) : UInt32 := ofLe32 [m a, m (a + 1), m (a + 2), m (a + 3)]

/-- Where `mbr.partitions[i]` is, whatever `i` is. -/
def partitionAddr (i : Int32) : Int := 0x50 + 17 * i.toInt

/-- `mbr.partitions[i]` as `dump_partition` reads it. -/
def partition (m : Frame) (i : Int32) : PartitionEntry :=
  { partitionOffset := m.word (partitionAddr i)
    partitionSize := m.word (partitionAddr i + 4) }

/-- `mbr.partitions[i].partitionType`. -/
def partitionType (m : Frame) (i : Int32) : UInt8 := m (partitionAddr i + 9)

theorem copy_apply {m : Frame} {bs : List UInt8} {a : Nat} (ha : a < bs.length) :
    m.copy bs (a : Int) = bs.getD a 0 := by
  rw [copy, if_pos ⟨Int.natCast_nonneg a, Int.ofNat_lt.mpr ha⟩, Int.toNat_natCast]

/-- A word inside the copied bytes. -/
theorem word_copy {m : Frame} {bs : List UInt8} {a : Nat} (ha : a + 4 ≤ bs.length) :
    (m.copy bs).word (a : Int) = ofLe32 (bs.drop a) := by
  have hbyte : ∀ i < 4, m.copy bs ((a : Int) + (i : Nat)) = bs.getD (a + i) 0 := by
    intro i hi
    rw [← Int.natCast_add]
    exact copy_apply (by omega)
  have h0 : m.copy bs (a : Int) = bs.getD a 0 := copy_apply (by omega)
  have h1 := hbyte 1 (by decide)
  have h2 := hbyte 2 (by decide)
  have h3 := hbyte 3 (by decide)
  simp only [Nat.cast_ofNat, Nat.cast_one] at h1 h2 h3
  rw [word, h0, h1, h2, h3]
  simp [ofLe32, List.getD_eq_getElem?_getD]

end Frame

/-- A sector that `validateSceMbr` accepts. -/
structure SceMbr where
  sector : Sector
  valid : validateSceMbr sector.toList = 0

namespace SceMbr

/-- Entry `k` of the table. -/
def partition (mbr : SceMbr) (k : Fin 20) : PartitionEntry :=
  { partitionOffset := ofLe32 (mbr.sector.toList.drop (0x50 + 17 * k))
    partitionSize := ofLe32 (mbr.sector.toList.drop (0x50 + 17 * k + 4)) }

def partitionType (mbr : SceMbr) (k : Fin 20) : UInt8 :=
  mbr.sector.toList.getD (0x50 + 17 * k + 9) 0

end SceMbr

/-- An index within the table reads the table. -/
theorem Frame.partition_copy (m : Frame) (mbr : SceMbr) {i : Int32} {k : Fin 20}
    (hi : i.toInt = k) :
    (m.copy mbr.sector.toList).partition i = mbr.partition k ∧
      (m.copy mbr.sector.toList).partitionType i = mbr.partitionType k := by
  have hk := k.isLt
  have hlen := Sector.length_toList mbr.sector
  have haddr : partitionAddr i = ((0x50 + 17 * k.val : Nat) : Int) := by
    rw [partitionAddr, hi]
    push_cast
    rfl
  constructor
  · rw [Frame.partition, SceMbr.partition, haddr, word_copy (by omega),
      show ((0x50 + 17 * k.val : Nat) : Int) + 4 = ((0x50 + 17 * k.val + 4 : Nat) : Int) from rfl,
      word_copy (by omega)]
  · rw [Frame.partitionType, SceMbr.partitionType, haddr,
      show ((0x50 + 17 * k.val : Nat) : Int) + 9 = ((0x50 + 17 * k.val + 9 : Nat) : Int) from rfl,
      copy_apply (by omega)]

/-! ## The dump of a device -/

/-- `parse_sce_mbr`, over the bytes around its argument `mbr`: the return value, `none` when
control reaches the end of the function, which has no return statement there; these bytes
afterwards; the world. -/
def parseSceMbr (w : Winsock σ) (fuel : Nat) (dumpMode : Int32) (mbr : Frame) (s : σ) :
    Option (Option Int × Frame × σ) :=
  match readSectorMode w fuel dumpMode 0 s with
  | none => none
  | some (ret, mbrSector, s) =>
      if ret < 0 then some (some (-1), mbr, s)
      else if validateSceMbr ((mbr.copy mbrSector).load 0x200) < 0 then
        some (some (-1), mbr.copy mbrSector, s)
      else some (none, mbr.copy mbrSector, s)

/-- `dump_device` up to its call of `dump_partition`: what it returns without the call, or the
entry it makes the call with. -/
def chosenPartition (w : Winsock σ) (fuel : Nat) (mbr : Frame)
    (dumpMode dumpPartitionIndex : Int32) (s : σ) : Option (Except Int PartitionEntry × σ) :=
  match emmcPing w s with
  | (iResult, s) =>
      if iResult < 0 then some (.error (-1), s)
      else
        match parseSceMbr w fuel dumpMode mbr s with
        | none => none
        | some (_, mbr, s) =>
            if mbr.partitionType dumpPartitionIndex = 0 then some (.error (-1), s)
            else some (.ok (mbr.partition dumpPartitionIndex), s)

/-- What `dump_device` leaves: its return value, the entry that `dump_partition` was called
with and what that call left, and the world. -/
structure DeviceDump (σ : Type) where
  ret : Int
  dumped : Option (PartitionEntry × Dump σ)
  world : σ

/-- `dump_device`; `mbr` is what the stack holds around the variable. -/
def dumpDevice (w : Winsock σ) (fuel : Nat) (mbr : Frame) (dumpMode dumpPartitionIndex : Int32)
    (s : σ) : Option (DeviceDump σ) :=
  match chosenPartition w fuel mbr dumpMode dumpPartitionIndex s with
  | none => none
  | some (.error ret, s) => some ⟨ret, none, s⟩
  | some (.ok partition, s) =>
      match dumpPartition w fuel dumpMode partition s with
      | none => none
      | some d => some ⟨0, some (partition, d), d.world⟩

/-! ## Which partition is dumped? -/

/-- The entry is a used one in the table of the sector 0 that was read after the ping, and
that sector is a valid MBR. -/
def Listed (w : Winsock σ) (fuel : Nat) (dumpMode dumpPartitionIndex : Int32) (s : σ)
    (partition : PartitionEntry) : Prop :=
  KnownMode dumpMode ∧ 0 ≤ (emmcPing w s).1 ∧
    ∃ (mbr : SceMbr) (k : Fin 20), dumpPartitionIndex.toInt = k ∧
      (∃ ret s', readSectorMode w fuel dumpMode 0 (emmcPing w s).2 =
        some (ret, mbr.sector.toList, s') ∧ 0 ≤ ret) ∧
      mbr.partitionType k ≠ 0 ∧ partition = mbr.partition k

/-- `dump_device` calls `dump_partition` with a listed entry, or it returns an error and has not
sent INIT.  Where it waits for a response for ever it does neither. -/
def Guarded (api : WinsockApi Addr σ) (h : Socket) (mbr : Frame) (args : Args) (s : σ) : Prop :=
  ∃ fuel,
    (∃ partition t,
      chosenPartition (api.recorded.on h) fuel mbr args.dumpMode args.dumpPartitionIndex (s, []) =
        some (.ok partition, t) ∧
      Listed (api.recorded.on h) fuel args.dumpMode args.dumpPartitionIndex (s, []) partition) ∨
    ∃ ret t,
      dumpDevice (api.recorded.on h) fuel mbr args.dumpMode args.dumpPartitionIndex (s, []) =
        some ⟨ret, none, t⟩ ∧
      ret < 0 ∧ ∀ h' a b before, Call.send h' (Request.init a b).encode before ∉ t.2

/-- The bytes around `mbr` once sector 0 has been read, or not. -/
def Frame.afterRead (m : Frame) (ret : Int) (mbrSector : List UInt8) : Frame :=
  if ret < 0 then m else m.copy mbrSector

/-- The validation decides what `parse_sce_mbr` returns, and nobody looks at that: the entry in
memory is all that counts. -/
theorem chosenPartition_eq (w : Winsock σ) (fuel : Nat) (mbr : Frame)
    (dumpMode dumpPartitionIndex : Int32) (s : σ) :
    chosenPartition w fuel mbr dumpMode dumpPartitionIndex s =
      if (emmcPing w s).1 < 0 then some (.error (-1), (emmcPing w s).2)
      else
        (readSectorMode w fuel dumpMode 0 (emmcPing w s).2).map fun (ret, mbrSector, s') =>
          (if (mbr.afterRead ret mbrSector).partitionType dumpPartitionIndex = 0 then .error (-1)
            else .ok ((mbr.afterRead ret mbrSector).partition dumpPartitionIndex), s') := by
  unfold chosenPartition
  cases emmcPing w s with
  | mk iResult s₁ =>
      dsimp only
      split
      · rfl
      · unfold parseSceMbr
        cases readSectorMode w fuel dumpMode 0 s₁ with
        | none => rfl
        | some answer =>
            obtain ⟨ret, mbrSector, s'⟩ := answer
            dsimp only [Option.map_some]
            by_cases hret : ret < 0
            · rw [if_pos hret, Frame.afterRead, if_pos hret]
              dsimp only
              split <;> rfl
            · rw [if_neg hret, Frame.afterRead, if_neg hret]
              by_cases hvalid : validateSceMbr ((mbr.copy mbrSector).load 0x200) < 0
              · rw [if_pos hvalid]
                dsimp only
                split <;> rfl
              · rw [if_neg hvalid]
                dsimp only
                split <;> rfl

/-- With a call of `dump_partition`: the ping succeeded, sector 0 was read or not, and the
entry in memory is not empty. -/
theorem chosenPartition_ok_iff {w : Winsock σ} {fuel : Nat} {mbr : Frame}
    {dumpMode dumpPartitionIndex : Int32} {s s' : σ} {partition : PartitionEntry} :
    chosenPartition w fuel mbr dumpMode dumpPartitionIndex s = some (.ok partition, s') ↔
      0 ≤ (emmcPing w s).1 ∧ ∃ ret mbrSector,
        readSectorMode w fuel dumpMode 0 (emmcPing w s).2 = some (ret, mbrSector, s') ∧
        (mbr.afterRead ret mbrSector).partitionType dumpPartitionIndex ≠ 0 ∧
        partition = (mbr.afterRead ret mbrSector).partition dumpPartitionIndex := by
  rw [chosenPartition_eq]
  constructor
  · intro hr
    split at hr
    · cases hr
    · rename_i hping
      obtain ⟨⟨ret, mbrSector, s''⟩, hread, hr⟩ := Option.map_eq_some_iff.mp hr
      dsimp only at hr
      split at hr
      · cases hr
      · rename_i htype
        cases hr
        exact ⟨Int.not_lt.mp hping, ret, mbrSector, hread, htype, rfl⟩
  · rintro ⟨hping, ret, mbrSector, hread, htype, rfl⟩
    rw [if_neg (Int.not_lt.mpr hping), hread, Option.map_some]
    dsimp only
    rw [if_neg htype]

/-- Without one: the ping failed, or the entry in memory is empty. -/
theorem chosenPartition_error_iff {w : Winsock σ} {fuel : Nat} {mbr : Frame}
    {dumpMode dumpPartitionIndex : Int32} {s s' : σ} {ret : Int} :
    chosenPartition w fuel mbr dumpMode dumpPartitionIndex s = some (.error ret, s') ↔
      ret = -1 ∧ (((emmcPing w s).1 < 0 ∧ s' = (emmcPing w s).2) ∨
        0 ≤ (emmcPing w s).1 ∧ ∃ ret mbrSector,
          readSectorMode w fuel dumpMode 0 (emmcPing w s).2 = some (ret, mbrSector, s') ∧
          (mbr.afterRead ret mbrSector).partitionType dumpPartitionIndex = 0) := by
  rw [chosenPartition_eq]
  constructor
  · intro hr
    split at hr
    · rename_i hping
      cases hr
      exact ⟨rfl, Or.inl ⟨hping, rfl⟩⟩
    · rename_i hping
      obtain ⟨⟨ret', mbrSector, s''⟩, hread, hr⟩ := Option.map_eq_some_iff.mp hr
      dsimp only at hr
      split at hr
      · rename_i htype
        cases hr
        exact ⟨rfl, Or.inr ⟨Int.not_lt.mp hping, ret', mbrSector, hread, htype⟩⟩
      · cases hr
  · rintro ⟨rfl, ⟨hping, rfl⟩ | ⟨hping, ret', mbrSector, hread, htype⟩⟩
    · rw [if_pos hping]
    · rw [if_neg (Int.not_lt.mpr hping), hread, Option.map_some]
      dsimp only
      rw [if_pos htype]

theorem chosenPartition_mono {w : Winsock σ} {fuel fuel' : Nat} {mbr : Frame}
    {dumpMode dumpPartitionIndex : Int32} {s : σ} {r : Except Int PartitionEntry × σ}
    (hle : fuel ≤ fuel')
    (hr : chosenPartition w fuel mbr dumpMode dumpPartitionIndex s = some r) :
    chosenPartition w fuel' mbr dumpMode dumpPartitionIndex s = some r := by
  rw [chosenPartition_eq] at hr ⊢
  split at hr
  · rename_i hping
    rw [if_pos hping]
    exact hr
  · rename_i hping
    rw [if_neg hping]
    obtain ⟨answer, hread, hr⟩ := Option.map_eq_some_iff.mp hr
    exact Option.map_eq_some_iff.mpr ⟨answer, readSectorMode_mono hle hread, hr⟩

/-- `dump_device` returns without a call of `dump_partition` what it would return then. -/
theorem dumpDevice_undumped_iff {w : Winsock σ} {fuel : Nat} {mbr : Frame}
    {dumpMode dumpPartitionIndex : Int32} {s s' : σ} {ret : Int} :
    dumpDevice w fuel mbr dumpMode dumpPartitionIndex s = some ⟨ret, none, s'⟩ ↔
      chosenPartition w fuel mbr dumpMode dumpPartitionIndex s = some (.error ret, s') := by
  unfold dumpDevice
  constructor
  · intro hr
    split at hr
    · cases hr
    · rename_i hchosen
      cases hr
      exact hchosen
    · split at hr
      · cases hr
      · cases hr
  · intro hchosen
    rw [hchosen]

section recorded

variable {api : WinsockApi Addr σ} {h : Socket} {fuel : Nat} {P : Request → Prop}
  {dumpMode dumpPartitionIndex : Int32} {mbr : Frame} {t t' : Recorded σ}

/-- Up to the call the client pings and reads a sector, and for a listed entry both are
accepted. -/
theorem chosenPartition_reports {r : Except Int PartitionEntry} (hping : P .ping)
    (hread : ∀ dev, P (.readSector dev 0))
    (hr : chosenPartition (api.recorded.on h) fuel mbr dumpMode dumpPartitionIndex t =
      some (r, t')) :
    Reports api fuel h P
      (∃ p, Listed (api.recorded.on h) fuel dumpMode dumpPartitionIndex t p)
      (∃ p, Listed (api.recorded.on h) fuel dumpMode dumpPartitionIndex t p) t t' := by
  obtain ⟨ok, hasked, hok⟩ := emmcPing_asked fuel
    (Prod.mk.eta (p := emmcPing (api.recorded.on h) t)).symm
  have hpinged : Reports api fuel h P False (0 ≤ (emmcPing (api.recorded.on h) t).1) t
      (emmcPing (api.recorded.on h) t).2 := hasked.reports hping hok False.elim
  rw [chosenPartition_eq] at hr
  split at hr
  · cases hr
    exact hpinged.of_imp (fun ⟨_, hlisted⟩ => hlisted.2.1)
  · obtain ⟨⟨ret, mbrSector, t₁⟩, hsector, hr⟩ := Option.map_eq_some_iff.mp hr
    obtain ⟨_, rfl⟩ := Prod.mk.inj hr
    have hreads : Reports api fuel h P False (0 ≤ ret) _ t₁ :=
      (readSectorMode_reports hread hsector).1.weaken False.elim
    refine (hpinged.trans hreads).of_imp ?_
    rintro ⟨_, _, hping, mbr, k, _, ⟨ret', t'', hsector', hret⟩, _⟩
    cases hsector.symm.trans hsector'
    exact ⟨hping, hret⟩

/-- What `dump_device` returns without a call of `dump_partition` it returns without INIT. -/
theorem guarded_of_refused {api : WinsockApi Addr σ} {h : Socket} {mbr : Frame} {args : Args}
    {s : σ} {fuel : Nat} {t : Recorded σ}
    (hchosen : chosenPartition (api.recorded.on h) fuel mbr args.dumpMode args.dumpPartitionIndex
      (s, []) = some (.error (-1), t)) : Guarded api h mbr args s := by
  refine ⟨fuel, Or.inr ⟨-1, t, dumpDevice_undumped_iff.mpr hchosen, by decide, ?_⟩⟩
  intro h' a b before hsent
  have hreports := chosenPartition_reports (P := fun r => r.command ≠ .init)
    (by decide) (fun _ he => by cases he) hchosen
  obtain ⟨_, r, hne, hr⟩ := (hreports.on _ hsent).resolve_left List.not_mem_nil
  exact hne (by rw [← Request.encode_injective hr]; rfl)

/-- A used entry of a valid MBR at an accepted index is a listed one. -/
theorem guarded_of_valid {lexicalCast : String → Option Int32} {argv : List String} {args : Args}
    (hargs : parseArgs lexicalCast argv = some (some args)) {api : WinsockApi Addr σ} {h : Socket}
    {mbr : Frame} {s : σ} {fuel : Nat} {ret : Int} {mbrSector : List UInt8} {t : Recorded σ}
    (hping : 0 ≤ (emmcPing (api.recorded.on h) (s, [])).1)
    (hread : readSectorMode (api.recorded.on h) fuel args.dumpMode 0
      (emmcPing (api.recorded.on h) (s, [])).2 = some (ret, mbrSector, t))
    (htype : (mbr.afterRead ret mbrSector).partitionType args.dumpPartitionIndex ≠ 0)
    (hret : 0 ≤ ret) (hvalid : validateSceMbr mbrSector = 0)
    (hindex : 0 ≤ args.dumpPartitionIndex) : Guarded api h mbr args s := by
  have hchosen := chosenPartition_ok_iff.mpr ⟨hping, ret, mbrSector, hread, htype, rfl⟩
  obtain ⟨hmode, hlen⟩ := (readSectorMode_reports (P := fun _ => True)
    (fun _ => trivial) hread).2 hret
  rw [Int32.le_iff_toInt_le] at hindex
  have hbound := Int32.lt_iff_toInt_lt.mp (parseArgs_bounds hargs).2
  have h0 : (0 : Int32).toInt = 0 := rfl
  have h20 : nPartitions.toInt = 20 := rfl
  let valid : SceMbr := ⟨⟨mbrSector.toArray, by simpa using hlen⟩, hvalid⟩
  have hk : args.dumpPartitionIndex.toInt =
      ((⟨args.dumpPartitionIndex.toInt.toNat, by omega⟩ : Fin 20) : Nat) := by
    dsimp only
    omega
  have hmemory : mbr.afterRead ret mbrSector = mbr.copy mbrSector :=
    if_neg (Int.not_lt.mpr hret)
  rw [hmemory] at htype
  obtain ⟨hpart, htyp⟩ := Frame.partition_copy mbr valid hk
  refine ⟨fuel, Or.inl ⟨_, t, hchosen, hmode, hping, valid, _, hk, ⟨ret, t, hread, hret⟩,
    htyp ▸ htype, ?_⟩⟩
  rw [hmemory]
  exact hpart

/-- **Which partition is dumped.**  For every accepted command line, every content of the
device and of the stack, and every outcome of the read: `dump_device` is guarded exactly when
the ping fails, or the read of sector 0 comes to an end and memory then holds an empty entry, or
the sector was read and is a valid MBR and the index is not negative. -/
theorem dump_device_guarded_iff {lexicalCast : String → Option Int32} {argv : List String}
    {args : Args} (hargs : parseArgs lexicalCast argv = some (some args))
    (api : WinsockApi Addr σ) (h : Socket) (mbr : Frame) (s : σ) :
    Guarded api h mbr args s ↔
      (emmcPing (api.recorded.on h) (s, [])).1 < 0 ∨
      ∃ fuel ret mbrSector t, readSectorMode (api.recorded.on h) fuel args.dumpMode 0
          (emmcPing (api.recorded.on h) (s, [])).2 = some (ret, mbrSector, t) ∧
        ((mbr.afterRead ret mbrSector).partitionType args.dumpPartitionIndex = 0 ∨
          (0 ≤ ret ∧ validateSceMbr mbrSector = 0 ∧ 0 ≤ args.dumpPartitionIndex)) := by
  constructor
  · rintro ⟨fuel, ⟨partition, t, hchosen, hlisted⟩ | ⟨ret, t, hdump, _⟩⟩
    · obtain ⟨_, _, mbr', k, hk, ⟨ret, t', hread, hret⟩, _⟩ := hlisted
      refine Or.inr ⟨fuel, ret, _, t', hread, Or.inr ⟨hret, mbr'.valid, ?_⟩⟩
      rw [Int32.le_iff_toInt_le, hk]
      exact Int.natCast_nonneg k.val
    · obtain ⟨_, ⟨hping, _⟩ | ⟨_, ret', mbrSector, hread, htype⟩⟩ :=
        chosenPartition_error_iff.mp (dumpDevice_undumped_iff.mp hdump)
      · exact Or.inl hping
      · exact Or.inr ⟨fuel, ret', mbrSector, t, hread, Or.inl htype⟩
  · intro hcond
    by_cases hping : (emmcPing (api.recorded.on h) (s, [])).1 < 0
    · have hchosen : chosenPartition (api.recorded.on h) 0 mbr args.dumpMode
          args.dumpPartitionIndex (s, []) = some (.error (-1), _) :=
        chosenPartition_error_iff.mpr ⟨rfl, Or.inl ⟨hping, rfl⟩⟩
      exact guarded_of_refused hchosen
    · obtain ⟨fuel, ret, mbrSector, t, hread, hcases⟩ := hcond.resolve_left hping
      have hping := Int.not_lt.mp hping
      by_cases htype : (mbr.afterRead ret mbrSector).partitionType args.dumpPartitionIndex = 0
      · exact guarded_of_refused (chosenPartition_error_iff.mpr
          ⟨rfl, Or.inr ⟨hping, ret, mbrSector, hread, htype⟩⟩)
      · obtain ⟨hret, hvalid, hindex⟩ := hcases.resolve_left htype
        exact guarded_of_valid hargs hping hread htype hret hvalid hindex

end recorded

/-- A sector 0 whose first entry is nine sectors from sector 8 on, of type `raw`. -/
def sampleMbr : List UInt8 :=
  sceHeader ++ [3, 0, 0, 0] ++ List.replicate 44 0 ++ [8, 0, 0, 0, 9, 0, 0, 0, 8, 0xDA] ++
    List.replicate 420 0 ++ [0x55, 0xAA]

/-- `lexical_cast<int>` on the arguments below. -/
def castZero (arg : String) : Option Int32 := if arg = "0" then some 0 else none

/-- With a valid MBR on the card, entry 0 is dumped by right. -/
theorem dump_device_guarded_sample :
    Guarded replay 3 (fun _ => 0) ⟨0, 0, "dump"⟩
      [Response.encode { command := 0, data := emmcProxyData },
       Response.encode { command := 4, data := sampleMbr }] := by
  have hargs : parseArgs castZero ["psvemmc", "0", "0", "dump"] = some (some ⟨0, 0, "dump"⟩) := by
    decide
  have hvalues : (readSectorMode (replay.recorded.on 3) 1 0 0
      (emmcPing (replay.recorded.on 3)
        ([Response.encode { command := 0, data := emmcProxyData },
          Response.encode { command := 4, data := sampleMbr }], [])).2).map
        (fun r => (r.1, r.2.1)) = some (0, sampleMbr) := by decide +kernel
  obtain ⟨⟨ret, mbrSector, t⟩, hread, hvalues⟩ := Option.map_eq_some_iff.mp hvalues
  cases hvalues
  exact (dump_device_guarded_iff hargs replay 3 (fun _ => 0) _).mpr (Or.inr
    ⟨1, 0, sampleMbr, t, hread, Or.inr ⟨by decide, by decide +kernel, by decide⟩⟩)

/-- A card without an MBR: sector 0 holds ones, its header is refused, and its "entry 0" is
dumped all the same. -/
theorem dump_device_of_no_mbr :
    parseArgs castZero ["psvemmc", "0", "0", "dump"] = some (some ⟨0, 0, "dump"⟩) ∧
    ¬ Guarded replay 3 (fun _ => 0) ⟨0, 0, "dump"⟩
      [Response.encode { command := 0, data := emmcProxyData },
       Response.encode { command := 4, data := List.replicate 0x200 1 }] := by
  refine ⟨by decide, ?_⟩
  have hchosen : (chosenPartition (replay.recorded.on 3) 1 (fun _ => 0) 0 0
      ([Response.encode { command := 0, data := emmcProxyData },
        Response.encode { command := 4, data := List.replicate 0x200 1 }], [])).map
        (fun r => r.1.isOk) = some true := by decide +kernel
  have hsector : (readSectorMode (replay.recorded.on 3) 1 0 0
      (emmcPing (replay.recorded.on 3)
        ([Response.encode { command := 0, data := emmcProxyData },
          Response.encode { command := 4, data := List.replicate 0x200 1 }], [])).2).map
        (fun r => r.2.1) = some (List.replicate 0x200 1) := by decide +kernel
  obtain ⟨⟨r, t⟩, hr, hok⟩ := Option.map_eq_some_iff.mp hchosen
  obtain ⟨⟨ret, ones, t'⟩, hread, hones⟩ := Option.map_eq_some_iff.mp hsector
  obtain rfl : ones = List.replicate 0x200 1 := hones
  rintro ⟨fuel, ⟨_, _, _, _, _, mbr, _, _, ⟨_, _, hread', _⟩, _⟩ | ⟨_, _, hdump, _⟩⟩
  · have hsame := eq_of_mono readSectorMode_mono hread hread'
    have hones : List.replicate 0x200 1 = mbr.sector.toList :=
      (Prod.mk.inj (Prod.mk.inj hsame).2).1
    have hvalid := mbr.valid
    rw [← hones] at hvalid
    exact absurd hvalid (by decide +kernel)
  · have hsame := eq_of_mono chosenPartition_mono hr (dumpDevice_undumped_iff.mp hdump)
    cases hsame
    cases hok

end PsvEmmc
