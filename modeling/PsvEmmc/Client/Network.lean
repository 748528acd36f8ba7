/-
# `PsvEmmc.Client.Network` — the answers of the network

What a request meets is told here by the answers of `send` and `recv` alone,
call after call, without the functions of the client: the request is taken,
the bytes of the response come in one receive or in as many as it takes, and
the header passes the check (`Serves`).  No fuel is needed, because bytes that
come at all come in finitely many receives.

A function of the client then succeeds exactly when its request is served, and
with more fuel it returns what it returned.  The requests of a whole dump are
a list (`dumpRequests`), and a dump ends without an error exactly when the
list is served in order.
-/
import PsvEmmc.Client.Calls

namespace PsvEmmc

open Words Memory

variable {Addr σ : Type}

/-! ## Requests that are served -/

namespace Winsock

/-- `send` does not fail. -/
def Takes (w : Winsock σ) (r : Request) (s s' : σ) : Prop :=
  ∃ sent, w.send r.encode s = (sent, s') ∧ sent ≠ socketError

/-- One receive into a struct of `size` bytes does not fail, and leaves `resp` there. -/
def Responds (w : Winsock σ) (size : Nat) (resp : List UInt8) (s s' : σ) : Prop :=
  ∃ bytes, w.recv size s = (some bytes, s') ∧ resp = overlay (load (w.residue s') 0 size) bytes

/-- Receives that ask for what is missing bring `n` bytes. -/
inductive Delivers (w : Winsock σ) : Nat → List UInt8 → σ → σ → Prop
  | done {s : σ} : Delivers w 0 [] s s
  | more {n : Nat} {bytes rest : List UInt8} {s s' s'' : σ} :
      w.recv (n + 1) s = (some bytes, s') → Delivers w (n + 1 - bytes.length) rest s' s'' →
      Delivers w (n + 1) (bytes ++ rest) s s''

/-- `r` is taken and a response comes whose header passes the check of the function that sends
`r`, with `data` behind the header. -/
def Serves (w : Winsock σ) (r : Request) (data : List UInt8) (s s' : σ) : Prop :=
  match r.command with
  | .readSector dev =>
      ∃ s₁ resp, w.Takes r s s₁ ∧ w.Delivers (12 + 0x200) resp s₁ s' ∧
        (CommandResponseBase.decode resp).rejectsRead (.readSector dev) = false ∧
        data = resp.drop 12
  | .readCluster dev =>
      ∃ s₁ s₂ resp, w.Takes r s s₁ ∧ w.Responds 12 resp s₁ s₂ ∧
        w.Delivers clusterDataBytes data s₂ s' ∧
        (CommandResponseBase.decode resp).rejectsRead (.readCluster dev) = false
  | .ping =>
      ∃ s₁ resp, w.Takes r s s₁ ∧ w.Responds 22 resp s₁ s' ∧
        (CommandResponseBase.decode resp).rejects .ping = false ∧
        data = (resp.drop 12).take 10
  | c =>
      ∃ s₁ resp, w.Takes r s s₁ ∧ w.Responds 12 resp s₁ s' ∧
        (CommandResponseBase.decode resp).rejects c = false ∧ data = []

/-- The requests are served one after the other. -/
inductive ServesAll (w : Winsock σ) : List Request → σ → σ → Prop
  | nil {s : σ} : ServesAll w [] s s
  | cons {r : Request} {requests : List Request} {data : List UInt8} {s s' s'' : σ} :
      w.Serves r data s s' → ServesAll w requests s' s'' → ServesAll w (r :: requests) s s''

theorem ServesAll.append_iff {w : Winsock σ} {requests requests' : List Request} {s s'' : σ} :
    w.ServesAll (requests ++ requests') s s'' ↔
      ∃ s', w.ServesAll requests s s' ∧ w.ServesAll requests' s' s'' := by
  induction requests generalizing s with
  | nil =>
      constructor
      · exact fun h => ⟨s, .nil, h⟩
      · rintro ⟨s', h, h'⟩
        cases h
        exact h'
  | cons r requests ih =>
      constructor
      · intro h
        cases h with
        | cons hr hrest =>
            obtain ⟨s', h, h'⟩ := ih.mp hrest
            exact ⟨s', .cons hr h, h'⟩
      · rintro ⟨s', h, h'⟩
        cases h with
        | cons hr hrest => exact .cons hr (ih.mpr ⟨s', hrest, h'⟩)

/-- Only the pings and the reads bring data. -/
theorem Serves.data_eq_nil {w : Winsock σ} {r : Request} {data : List UInt8} {s s' : σ}
    (h : w.Serves r data s s') (hr : r.command = .init ∨ r.command = .deinit) : data = [] := by
  unfold Serves at h
  rcases hr with hr | hr
  · rw [hr] at h
    exact h.choose_spec.choose_spec.2.2.2
  · rw [hr] at h
    exact h.choose_spec.choose_spec.2.2.2

theorem servesAll_singleton {w : Winsock σ} {r : Request} {s s' : σ} :
    w.ServesAll [r] s s' ↔ ∃ data, w.Serves r data s s' := by
  constructor
  · intro h
    cases h with
    | cons hr hrest =>
        cases hrest
        exact ⟨_, hr⟩
  · exact fun ⟨_, hr⟩ => .cons hr .nil

end Winsock

/-! ## More fuel -/

section mono

variable {w : Winsock σ} {fuel fuel' : Nat} {s : σ}

theorem recvLoop_mono {n : Nat} {r : Option (List UInt8) × σ} (hle : fuel ≤ fuel')
    (h : recvLoop w fuel n s = some r) : recvLoop w fuel' n s = some r := by
  induction fuel generalizing fuel' n s r with
  | zero =>
      cases n with
      | zero =>
          cases h
          cases fuel' <;> rfl
      | succ n => cases h
  | succ fuel ih =>
      obtain ⟨fuel', rfl⟩ := Nat.exists_eq_add_of_le' (Nat.le_trans (Nat.succ_pos fuel) hle)
      have hle : fuel ≤ fuel' := Nat.le_of_succ_le_succ hle
      cases n with
      | zero =>
          cases h
          rfl
      | succ n =>
          unfold recvLoop at h ⊢
          split at h
          · exact h
          · rename_i bytes s' hrecv
            cases hrest : recvLoop w fuel (n + 1 - bytes.length) s' with
            | none =>
                rw [hrest] at h
                cases h
            | some rest =>
                rw [hrest] at h
                rw [ih hle hrest]
                exact h

theorem emmcReadSectorOn_mono {dev : Device} {sector : Int32} {r : Int × List UInt8 × σ}
    (hle : fuel ≤ fuel') (h : emmcReadSectorOn dev w fuel sector s = some r) :
    emmcReadSectorOn dev w fuel' sector s = some r := by
  unfold emmcReadSectorOn at h ⊢
  dsimp only at h ⊢
  split at h
  · rename_i hsend
    rw [if_pos hsend]
    exact h
  · rename_i hsend
    rw [if_neg hsend]
    split at h
    · cases h
    · rename_i hloop
      rw [recvLoop_mono hle hloop]
      exact h
    · rename_i hloop
      rw [recvLoop_mono hle hloop]
      exact h

theorem emmcReadClusterOn_mono {dev : Device} {cluster : Int32} {size : Nat}
    {r : Int × List UInt8 × σ} (hle : fuel ≤ fuel')
    (h : emmcReadClusterOn dev w fuel cluster size s = some r) :
    emmcReadClusterOn dev w fuel' cluster size s = some r := by
  unfold emmcReadClusterOn at h ⊢
  split at h
  · exact h
  · split at h
    · cases h
    · rename_i hloop
      rw [recvLoop_mono hle hloop]
      exact h
    · rename_i hloop
      rw [recvLoop_mono hle hloop]
      exact h

theorem readSectorMode_mono {dumpMode sector : Int32} {r : Int × List UInt8 × σ}
    (hle : fuel ≤ fuel') (h : readSectorMode w fuel dumpMode sector s = some r) :
    readSectorMode w fuel' dumpMode sector s = some r := by
  by_cases hmode : KnownMode dumpMode
  · obtain ⟨dev, rfl⟩ := hmode
    rw [readSectorMode_dumpMode] at h ⊢
    exact emmcReadSectorOn_mono hle h
  · rw [readSectorMode_unknown hmode] at h ⊢
    exact h

theorem readClusterMode_mono {dumpMode cluster : Int32} {size : Nat} {r : Int × List UInt8 × σ}
    (hle : fuel ≤ fuel') (h : readClusterMode w fuel dumpMode cluster size s = some r) :
    readClusterMode w fuel' dumpMode cluster size s = some r := by
  by_cases hmode : KnownMode dumpMode
  · obtain ⟨dev, rfl⟩ := hmode
    rw [readClusterMode_dumpMode] at h ⊢
    exact emmcReadClusterOn_mono hle h
  · rw [readClusterMode_unknown hmode] at h ⊢
    exact h

theorem dumpLoop_mono {read read' : Int32 → σ → Option (Int × List UInt8 × σ)}
    (hread : ∀ {i s r}, read i s = some r → read' i s = some r) {offset : Int32} {i n : Nat}
    {r : Bool × List UInt8 × σ} (h : dumpLoop read offset i n s = some r) :
    dumpLoop read' offset i n s = some r := by
  induction n generalizing i s r with
  | zero => exact h
  | succ n ih =>
      unfold dumpLoop at h ⊢
      split at h
      · cases h
      · rename_i hfirst
        rw [hread hfirst]
        dsimp only
        split at h
        · rename_i hret
          rw [if_pos hret]
          exact h
        · rename_i hret
          rw [if_neg hret]
          split at h
          · cases h
          · rename_i hrest
            rw [ih hrest]
            exact h

theorem dumpPartition_mono {dumpMode : Int32} {partition : PartitionEntry} {d : Dump σ}
    (hle : fuel ≤ fuel') (h : dumpPartition w fuel dumpMode partition s = some d) :
    dumpPartition w fuel' dumpMode partition s = some d := by
  unfold dumpPartition at h ⊢
  split at h
  split at h
  · rename_i hret
    dsimp only
    rw [if_pos hret]
    exact h
  · rename_i hret
    dsimp only at h ⊢
    rw [if_neg hret]
    split at h
    · cases h
    · rename_i hloop
      rw [dumpLoop_mono (readClusterMode_mono hle) hloop]
      exact h
    · rename_i hloop
      rw [dumpLoop_mono (readClusterMode_mono hle) hloop]
      dsimp only
      split at h
      · cases h
      · rename_i hloop'
        rw [dumpLoop_mono (readSectorMode_mono hle) hloop']
        exact h
      · rename_i hloop'
        rw [dumpLoop_mono (readSectorMode_mono hle) hloop']
        exact h

end mono

/-- What is returned with some fuel does not depend on how much. -/
theorem eq_of_mono {α : Type} {f : Nat → Option α}
    (hmono : ∀ {fuel fuel' x}, fuel ≤ fuel' → f fuel = some x → f fuel' = some x)
    {fuel fuel' : Nat} {x y : α} (hx : f fuel = some x) (hy : f fuel' = some y) : x = y :=
  Option.some.inj ((hmono (Nat.le_max_left fuel fuel') hx).symm.trans
    (hmono (Nat.le_max_right fuel fuel') hy))

/-! ## The client's functions -/

section functions

variable {w : Winsock σ} {s s' : σ}

theorem exchange_iff {r : Request} {size : Nat} {resp : List UInt8} :
    exchange w r size s = (some resp, s') ↔
      ∃ s₁, w.Takes r s s₁ ∧ w.Responds size resp s₁ s' := by
  unfold exchange Winsock.Takes Winsock.Responds
  cases hsend : w.send r.encode s with
  | mk sent s₁ =>
      dsimp only
      constructor
      · intro h
        split at h
        · cases h
        · rename_i hsent
          split at h
          · cases h
          · rename_i bytes s₂ hrecv
            cases h
            exact ⟨s₁, ⟨sent, rfl, hsent⟩, bytes, hrecv, rfl⟩
      · rintro ⟨_, ⟨_, he, hsent⟩, bytes, hrecv, rfl⟩
        cases he
        rw [if_neg hsent, hrecv]

theorem recvLoop_iff {n : Nat} {bytes : List UInt8} :
    (∃ fuel, recvLoop w fuel n s = some (some bytes, s')) ↔ w.Delivers n bytes s s' := by
  constructor
  · rintro ⟨fuel, h⟩
    induction fuel generalizing n s bytes with
    | zero =>
        cases n with
        | zero =>
            cases h
            exact .done
        | succ n => cases h
    | succ fuel ih =>
        cases n with
        | zero =>
            cases h
            exact .done
        | succ n =>
            unfold recvLoop at h
            split at h
            · cases h
            · rename_i piece s₁ hrecv
              split at h
              · rename_i hrest
                cases h
                exact .more hrecv (ih hrest)
              · rename_i hrest
                exact absurd h (hrest _ _)
  · intro h
    induction h with
    | done => exact ⟨0, rfl⟩
    | more hrecv _ ih =>
        obtain ⟨fuel, hrest⟩ := ih
        refine ⟨fuel + 1, ?_⟩
        rw [recvLoop, hrecv]
        dsimp only
        rw [hrest]

/-- A ping that is served is refused only for its data. -/
theorem emmcPing_of_serves {data : List UInt8} (h : w.Serves .ping data s s') :
    emmcPing w s = (if data = emmcProxyData then 0 else -1, s') := by
  obtain ⟨s₁, resp, htakes, hresp, hrej, rfl⟩ := h
  rw [emmcPing, exchange_iff.mpr ⟨s₁, htakes, hresp⟩]
  dsimp only
  rw [if_neg (Bool.eq_false_iff.mp hrej)]
  by_cases hdata : (resp.drop 12).take 10 = emmcProxyData
  · rw [if_neg (not_not.mpr hdata), if_pos hdata]
  · rw [if_pos hdata, if_neg hdata]

theorem emmcPing_iff :
    (∃ ret, emmcPing w s = (ret, s') ∧ 0 ≤ ret) ↔ w.Serves .ping emmcProxyData s s' := by
  constructor
  · rintro ⟨ret, h, hret⟩
    unfold emmcPing at h
    split at h
    · cases h
      exact absurd hret (by decide)
    · rename_i resp s₁ hexch
      split at h
      · cases h
        exact absurd hret (by decide)
      · rename_i hrej
        split at h
        · cases h
          exact absurd hret (by decide)
        · rename_i hdata
          cases h
          obtain ⟨s₁, htakes, hresp⟩ := exchange_iff.mp hexch
          exact ⟨s₁, resp, htakes, hresp, Bool.eq_false_iff.mpr hrej, (not_not.mp hdata).symm⟩
  · intro h
    refine ⟨0, ?_, Int.le_refl 0⟩
    rw [emmcPing_of_serves h, if_pos rfl]

theorem emmcInit_iff {a b : Int32} :
    (∃ ret, emmcInit w a b s = (ret, s') ∧ 0 ≤ ret) ↔ w.Serves (.init a b) [] s s' := by
  constructor
  · rintro ⟨ret, h, hret⟩
    unfold emmcInit at h
    split at h
    · cases h
      exact absurd hret (by decide)
    · rename_i resp s₁ hexch
      split at h
      · cases h
        exact absurd hret (by decide)
      · rename_i hrej
        cases h
        obtain ⟨s₁, htakes, hresp⟩ := exchange_iff.mp hexch
        exact ⟨s₁, resp, htakes, hresp, Bool.eq_false_iff.mpr hrej, rfl⟩
  · rintro ⟨s₁, resp, htakes, hresp, hrej, _⟩
    refine ⟨0, ?_, Int.le_refl 0⟩
    rw [emmcInit, exchange_iff.mpr ⟨s₁, htakes, hresp⟩]
    exact if_neg (Bool.eq_false_iff.mp hrej)

theorem emmcDeinit_iff :
    (∃ ret, emmcDeinit w s = (ret, s') ∧ 0 ≤ ret) ↔ w.Serves .deinit [] s s' := by
  constructor
  · rintro ⟨ret, h, hret⟩
    unfold emmcDeinit at h
    split at h
    · cases h
      exact absurd hret (by decide)
    · rename_i resp s₁ hexch
      split at h
      · cases h
        exact absurd hret (by decide)
      · rename_i hrej
        cases h
        obtain ⟨s₁, htakes, hresp⟩ := exchange_iff.mp hexch
        exact ⟨s₁, resp, htakes, hresp, Bool.eq_false_iff.mpr hrej, rfl⟩
  · rintro ⟨s₁, resp, htakes, hresp, hrej, _⟩
    refine ⟨0, ?_, Int.le_refl 0⟩
    rw [emmcDeinit, exchange_iff.mpr ⟨s₁, htakes, hresp⟩]
    exact if_neg (Bool.eq_false_iff.mp hrej)

theorem emmcReadSectorOn_iff {dev : Device} {sector : Int32} {data : List UInt8} :
    (∃ fuel ret, emmcReadSectorOn dev w fuel sector s = some (ret, data, s') ∧ 0 ≤ ret) ↔
      w.Serves (.readSector dev sector) data s s' := by
  constructor
  · rintro ⟨fuel, ret, h, hret⟩
    unfold emmcReadSectorOn at h
    dsimp only at h
    split at h
    · cases h
      exact absurd hret (by decide)
    · rename_i hsend
      split at h
      · cases h
      · cases h
        exact absurd hret (by decide)
      · rename_i resp s₁ hloop
        split at h
        · cases h
          exact absurd hret (by decide)
        · rename_i hrej
          cases h
          exact ⟨_, resp, ⟨_, rfl, hsend⟩, recvLoop_iff.mp ⟨fuel, hloop⟩,
            Bool.eq_false_iff.mpr hrej, rfl⟩
  · rintro ⟨s₁, resp, ⟨sent, hsend, hsent⟩, hdelivers, hrej, rfl⟩
    obtain ⟨fuel, hloop⟩ := recvLoop_iff.mpr hdelivers
    refine ⟨fuel, 0, ?_, Int.le_refl 0⟩
    unfold emmcReadSectorOn
    rw [hsend]
    dsimp only
    rw [if_neg hsent, hloop]
    exact if_neg (Bool.eq_false_iff.mp hrej)

theorem emmcReadClusterOn_iff {dev : Device} {cluster : Int32} {data : List UInt8} :
    (∃ fuel ret, emmcReadClusterOn dev w fuel cluster clusterDataBytes s =
      some (ret, data, s') ∧ 0 ≤ ret) ↔ w.Serves (.readCluster dev cluster) data s s' := by
  constructor
  · rintro ⟨fuel, ret, h, hret⟩
    unfold emmcReadClusterOn at h
    split at h
    · cases h
      exact absurd hret (by decide)
    · rename_i resp s₂ hexch
      split at h
      · cases h
      · cases h
        exact absurd hret (by decide)
      · rename_i hloop
        split at h
        · cases h
          exact absurd hret (by decide)
        · rename_i hrej
          cases h
          obtain ⟨s₁, htakes, hresp⟩ := exchange_iff.mp hexch
          exact ⟨s₁, s₂, resp, htakes, hresp, recvLoop_iff.mp ⟨fuel, hloop⟩,
            Bool.eq_false_iff.mpr hrej⟩
  · rintro ⟨s₁, s₂, resp, htakes, hresp, hdelivers, hrej⟩
    obtain ⟨fuel, hloop⟩ := recvLoop_iff.mpr hdelivers
    refine ⟨fuel, 0, ?_, Int.le_refl 0⟩
    rw [emmcReadClusterOn, exchange_iff.mpr ⟨s₁, htakes, hresp⟩]
    dsimp only
    rw [hloop]
    exact if_neg (Bool.eq_false_iff.mp hrej)

/-! ## The dump of a partition -/

/-- The device that `read_sector` and `read_cluster` choose. -/
def Device.ofDumpMode (dumpMode : Int32) : Option Device :=
  match dumpMode.toInt with
  | 0 => some .emmc
  | 1 => some .ms
  | 2 => some .gc
  | _ => none

theorem Device.ofDumpMode_dumpMode (dev : Device) : ofDumpMode dev.dumpMode = some dev := by
  cases dev <;> rfl

theorem Device.ofDumpMode_unknown {dumpMode : Int32} (hmode : ¬ KnownMode dumpMode) :
    ofDumpMode dumpMode = none := by
  obtain ⟨hemmc, hms, hgc⟩ := toInt_of_unknown hmode
  unfold ofDumpMode
  split
  · contradiction
  · contradiction
  · contradiction
  · rfl

/-- The requests of a loop of reads, from round `i` on with `n` rounds to go. -/
def loopRequests (request : Int32 → Request) (offset : Int32) (i n : Nat) : List Request :=
  (List.range' i n).map fun j => request (offset + Int32.ofNat j)

/-- A loop of reads ends without a failed one exactly when its requests are served. -/
theorem dumpLoop_iff {read : Nat → Int32 → σ → Option (Int × List UInt8 × σ)}
    {request : Int32 → Request}
    (hmono : ∀ {fuel fuel' i s r}, fuel ≤ fuel' → read fuel i s = some r →
      read fuel' i s = some r)
    (hread : ∀ {i s s'}, (∃ fuel ret data, read fuel i s = some (ret, data, s') ∧ 0 ≤ ret) ↔
      ∃ data, w.Serves (request i) data s s')
    {offset : Int32} {i n : Nat} :
    (∃ fuel written, dumpLoop (read fuel) offset i n s = some (true, written, s')) ↔
      w.ServesAll (loopRequests request offset i n) s s' := by
  induction n generalizing i s with
  | zero =>
      constructor
      · rintro ⟨_, _, h⟩
        cases h
        exact .nil
      · intro h
        cases h
        exact ⟨0, [], rfl⟩
  | succ n ih =>
      have hrequests : loopRequests request offset i (n + 1) =
          request (offset + Int32.ofNat i) :: loopRequests request offset (i + 1) n := by
        rw [loopRequests, List.range'_succ, List.map_cons, loopRequests]
      rw [hrequests]
      constructor
      · rintro ⟨fuel, written, h⟩
        unfold dumpLoop at h
        split at h
        · cases h
        · rename_i ret data s₁ hfirst
          split at h
          · cases h
          · rename_i hret
            split at h
            · cases h
            · rename_i ok more s₂ hrest
              cases h
              obtain ⟨data', hserves⟩ := hread.mp ⟨fuel, ret, data, hfirst, Int.not_lt.mp hret⟩
              exact .cons hserves (ih.mp ⟨fuel, more, hrest⟩)
      · intro h
        cases h with
        | cons hserves hrest =>
            obtain ⟨fuel₁, ret, data, hfirst, hret⟩ := hread.mpr ⟨_, hserves⟩
            obtain ⟨fuel₂, more, hrest⟩ := ih.mpr hrest
            refine ⟨max fuel₁ fuel₂, data ++ more, ?_⟩
            rw [dumpLoop, hmono (Nat.le_max_left fuel₁ fuel₂) hfirst]
            dsimp only
            rw [if_neg (Int.not_lt.mpr hret),
              dumpLoop_mono (hmono (Nat.le_max_right fuel₁ fuel₂)) hrest]

/-- The requests of a dump: INIT, and for a known mode the whole clusters, the sectors that are
left and DEINIT.  In another mode the first read fails before it sends anything, so DEINIT is
reached for an empty partition only. -/
def dumpRequests (dumpMode : Int32) (partition : PartitionEntry) : List Request :=
  let nClustersToRead := (partition.partitionSize / sectorsPerCluster.toUInt32).toInt32
  let nSectorsToRead := (partition.partitionSize % sectorsPerCluster.toUInt32).toInt32
  let clusterOffset := (partition.partitionOffset / sectorsPerCluster.toUInt32).toInt32
  let tailOffset :=
    (partition.partitionOffset + (nClustersToRead * sectorsPerCluster).toUInt32).toInt32
  .init sdDefaultSectorSize sectorsPerCluster ::
    match Device.ofDumpMode dumpMode with
    | some dev =>
        loopRequests (.readCluster dev) clusterOffset 0 nClustersToRead.toUInt32.toNat ++
          (loopRequests (.readSector dev) tailOffset 0 nSectorsToRead.toUInt32.toNat ++ [.deinit])
    | none => if partition.partitionSize = 0 then [.deinit] else []

theorem clusterLoop_iff {dev : Device} {offset : Int32} {i n : Nat} :
    (∃ fuel written, dumpLoop (fun cluster =>
        readClusterMode w fuel dev.dumpMode cluster clusterDataBytes) offset i n s =
      some (true, written, s')) ↔
      w.ServesAll (loopRequests (.readCluster dev) offset i n) s s' := by
  refine dumpLoop_iff ?_ ?_
  · exact readClusterMode_mono
  intro i s s'
  simp only [readClusterMode_dumpMode, ← emmcReadClusterOn_iff]
  exact ⟨fun ⟨fuel, ret, data, h⟩ => ⟨data, fuel, ret, h⟩,
    fun ⟨data, fuel, ret, h⟩ => ⟨fuel, ret, data, h⟩⟩

theorem sectorLoop_iff {dev : Device} {offset : Int32} {i n : Nat} :
    (∃ fuel written, dumpLoop (readSectorMode w fuel dev.dumpMode) offset i n s =
      some (true, written, s')) ↔ w.ServesAll (loopRequests (.readSector dev) offset i n) s s' := by
  refine dumpLoop_iff ?_ ?_
  · exact readSectorMode_mono
  intro i s s'
  simp only [readSectorMode_dumpMode, ← emmcReadSectorOn_iff]
  exact ⟨fun ⟨fuel, ret, data, h⟩ => ⟨data, fuel, ret, h⟩,
    fun ⟨data, fuel, ret, h⟩ => ⟨fuel, ret, data, h⟩⟩

/-- A dump in a known mode that ends without an error has had its requests served. -/
theorem dumpPartition_serves {dev : Device} {partition : PartitionEntry} {fuel : Nat} {d : Dump σ}
    (h : dumpPartition w fuel dev.dumpMode partition s = some d) (hret : d.ret = none) :
    w.ServesAll (dumpRequests dev.dumpMode partition) s d.world := by
  rw [dumpRequests, Device.ofDumpMode_dumpMode]
  dsimp only
  unfold dumpPartition at h
  split at h
  rename_i iResult s₁ hinit
  split at h
  · cases h
    cases hret
  · rename_i hinit'
    dsimp only at h
    split at h
    · cases h
    · cases h
      cases hret
    · rename_i hloop
      split at h
      · cases h
      · cases h
        cases hret
      · rename_i hloop'
        generalize hdeinit : emmcDeinit w _ = answer at h
        obtain ⟨iResult', s₂⟩ := answer
        dsimp only at h
        split at h
        · cases h
          cases hret
        · rename_i hdeinit'
          cases h
          refine .cons (emmcInit_iff.mp ⟨_, hinit, Int.not_lt.mp hinit'⟩) ?_
          refine Winsock.ServesAll.append_iff.mpr ⟨_, clusterLoop_iff.mp ⟨fuel, _, hloop⟩, ?_⟩
          refine Winsock.ServesAll.append_iff.mpr ⟨_, sectorLoop_iff.mp ⟨fuel, _, hloop'⟩, ?_⟩
          exact Winsock.servesAll_singleton.mpr
            ⟨[], emmcDeinit_iff.mp ⟨_, hdeinit, Int.not_lt.mp hdeinit'⟩⟩

/-- A dump whose requests are served ends without an error. -/
theorem dumpPartition_of_serves {dev : Device} {partition : PartitionEntry}
    (h : w.ServesAll (dumpRequests dev.dumpMode partition) s s') :
    ∃ fuel d, dumpPartition w fuel dev.dumpMode partition s = some d ∧ d.ret = none ∧
      d.world = s' := by
  rw [dumpRequests, Device.ofDumpMode_dumpMode] at h
  dsimp only at h
  cases h with
  | cons hinit hrest =>
      obtain ⟨s₂, hclusters, hrest⟩ := Winsock.ServesAll.append_iff.mp hrest
      obtain ⟨s₃, hsectors, hdeinit⟩ := Winsock.ServesAll.append_iff.mp hrest
      obtain ⟨_, hdeinit⟩ := Winsock.servesAll_singleton.mp hdeinit
      obtain rfl := hinit.data_eq_nil (Or.inl rfl)
      obtain rfl := hdeinit.data_eq_nil (Or.inr rfl)
      obtain ⟨iResult, hinit, hret⟩ := emmcInit_iff.mpr hinit
      obtain ⟨fuel₁, clusters, hclusters⟩ := clusterLoop_iff.mpr hclusters
      obtain ⟨fuel₂, sectors, hsectors⟩ := sectorLoop_iff.mpr hsectors
      obtain ⟨iResult', hdeinit, hret'⟩ := emmcDeinit_iff.mpr hdeinit
      refine ⟨max fuel₁ fuel₂, ⟨none, clusters ++ sectors, s'⟩, ?_, rfl, rfl⟩
      have hclusters := dumpLoop_mono (readClusterMode_mono (Nat.le_max_left fuel₁ fuel₂))
        hclusters
      have hsectors := dumpLoop_mono (readSectorMode_mono (Nat.le_max_right fuel₁ fuel₂))
        hsectors
      rw [clusterDataBytes] at hclusters
      unfold dumpPartition
      rw [hinit]
      dsimp only
      rw [if_neg (Int.not_lt.mpr hret), hclusters]
      dsimp only
      rw [hsectors]
      dsimp only
      rw [hdeinit]
      exact if_neg (Int.not_lt.mpr hret')

theorem emmcInit_of_serves {a b : Int32} {data : List UInt8} {ret : Int} {s₁ : σ}
    (hinit : emmcInit w a b s = (ret, s₁)) (hs : w.Serves (.init a b) data s s') :
    0 ≤ ret ∧ s' = s₁ := by
  obtain rfl := hs.data_eq_nil (Or.inl rfl)
  obtain ⟨ret', hinit', hret⟩ := emmcInit_iff.mpr hs
  cases hinit.symm.trans hinit'
  exact ⟨hret, rfl⟩

theorem emmcDeinit_of_serves {data : List UInt8} {ret : Int} {s₁ : σ}
    (hdeinit : emmcDeinit w s = (ret, s₁)) (hs : w.Serves .deinit data s s') :
    0 ≤ ret ∧ s' = s₁ := by
  obtain rfl := hs.data_eq_nil (Or.inr rfl)
  obtain ⟨ret', hdeinit', hret⟩ := emmcDeinit_iff.mpr hs
  cases hdeinit.symm.trans hdeinit'
  exact ⟨hret, rfl⟩

/-- Reads that fail end a loop in its first round. -/
theorem dumpLoop_failing {read : Int32 → σ → Option (Int × List UInt8 × σ)}
    (hread : ∀ i s, read i s = some (-1, [], s)) (offset : Int32) (i n : Nat) (s : σ) :
    dumpLoop read offset i n s = some (decide (n = 0), [], s) := by
  cases n with
  | zero => rfl
  | succ n =>
      rw [dumpLoop, hread]
      rfl

theorem partitionSize_eq_zero_iff (partitionSize : UInt32) :
    partitionSize = 0 ↔
      (partitionSize / sectorsPerCluster.toUInt32).toInt32.toUInt32.toNat = 0 ∧
        (partitionSize % sectorsPerCluster.toUInt32).toInt32.toUInt32.toNat = 0 := by
  constructor
  · rintro rfl
    exact ⟨rfl, rfl⟩
  · rintro ⟨hclusters, hsectors⟩
    have hparts := partition_length partitionSize
    rw [hclusters, hsectors] at hparts
    have hzero : (0 : UInt32).toNat = 0 := rfl
    exact UInt32.toNat_inj.mp (by omega)

/-- In a mode that is none, an empty partition is dumped by INIT and DEINIT. -/
theorem dumpPartition_unknown {fuel : Nat} {dumpMode : Int32} (hmode : ¬ KnownMode dumpMode)
    (partition : PartitionEntry) (s : σ) :
    dumpPartition w fuel dumpMode partition s =
      match emmcInit w sdDefaultSectorSize sectorsPerCluster s with
      | (iResult, s) =>
          if iResult < 0 then some ⟨some (-1), [], s⟩
          else if partition.partitionSize = 0 then
            match emmcDeinit w s with
            | (iResult, s) => some ⟨if iResult < 0 then some (-1) else none, [], s⟩
          else some ⟨some (-1), [], s⟩ := by
  have hcluster : ∀ i s, readClusterMode w fuel dumpMode i clusterDataBytes s = some (-1, [], s) :=
    fun i s => readClusterMode_unknown hmode i clusterDataBytes s
  have hsector : ∀ i s, readSectorMode w fuel dumpMode i s = some (-1, [], s) :=
    fun i s => readSectorMode_unknown hmode i s
  have hclusters := dumpLoop_failing hcluster
  have hsectors := dumpLoop_failing hsector
  have hempty := partitionSize_eq_zero_iff partition.partitionSize
  rw [clusterDataBytes] at hclusters
  unfold dumpPartition
  cases emmcInit w sdDefaultSectorSize sectorsPerCluster s with
  | mk iResult s =>
      dsimp only
      by_cases hinit : iResult < 0
      · rw [if_pos hinit, if_pos hinit]
      · rw [if_neg hinit, if_neg hinit, hclusters]
        by_cases hsize : partition.partitionSize = 0
        · obtain ⟨hnoClusters, hnoSectors⟩ := hempty.mp hsize
          rw [if_pos hsize, decide_eq_true hnoClusters]
          dsimp only
          rw [hsectors, decide_eq_true hnoSectors]
          dsimp only
          cases emmcDeinit w s with
          | mk iResult' s =>
              dsimp only
              by_cases hdeinit : iResult' < 0
              · rw [if_pos hdeinit, if_pos hdeinit]
                rfl
              · rw [if_neg hdeinit, if_neg hdeinit]
                rfl
        · rw [if_neg hsize]
          by_cases hnone :
              (partition.partitionSize / sectorsPerCluster.toUInt32).toInt32.toUInt32.toNat = 0
          · have hsome := not_and.mp (mt hempty.mpr hsize) hnone
            rw [decide_eq_true hnone]
            dsimp only
            rw [hsectors, decide_eq_false hsome]
            rfl
          · rw [decide_eq_false hnone]

/-- A dump whose requests are served comes to an end. -/
theorem dumpPartition_returns {dumpMode : Int32} {partition : PartitionEntry}
    (h : w.ServesAll (dumpRequests dumpMode partition) s s') :
    ∃ fuel d, dumpPartition w fuel dumpMode partition s = some d := by
  by_cases hmode : KnownMode dumpMode
  · obtain ⟨dev, rfl⟩ := hmode
    obtain ⟨fuel, d, hcall, _⟩ := dumpPartition_of_serves h
    exact ⟨fuel, d, hcall⟩
  · refine ⟨0, ?_⟩
    rw [dumpPartition_unknown hmode]
    dsimp only
    split_ifs <;> exact ⟨_, rfl⟩

end functions

/-! ## Served requests and the calls of a run -/

section recorded

variable {api : WinsockApi Addr σ} {h : Socket} {r : Request} {data : List UInt8}

-- Noting the calls does not change the answers.

theorem takes_recorded :
    (∃ log, (api.recorded.on h).Takes r t (s', log)) ↔ (api.on h).Takes r t.1 s' := by
  unfold Winsock.Takes
  rw [recorded_send]
  constructor
  · rintro ⟨_, _, he, hsent⟩
    cases he
    exact ⟨_, rfl, hsent⟩
  · rintro ⟨sent, he, hsent⟩
    rw [he]
    exact ⟨_, sent, rfl, hsent⟩

theorem responds_recorded {size : Nat} {resp : List UInt8} :
    (∃ log, (api.recorded.on h).Responds size resp t (s', log)) ↔
      (api.on h).Responds size resp t.1 s' := by
  unfold Winsock.Responds
  rw [recorded_recv]
  constructor
  · rintro ⟨_, bytes, he, hresp⟩
    obtain ⟨hbytes, he⟩ := Prod.mk.inj he
    obtain ⟨hs, _⟩ := Prod.mk.inj he
    exact ⟨bytes, Prod.ext hbytes hs, hresp⟩
  · rintro ⟨bytes, he, hresp⟩
    rw [he]
    exact ⟨_, bytes, rfl, hresp⟩

theorem delivers_of_recorded {n : Nat} {bytes : List UInt8}
    (hd : (api.recorded.on h).Delivers n bytes t t') :
    (api.on h).Delivers n bytes t.1 t'.1 := by
  induction hd with
  | done => exact .done
  | more hrecv _ ih =>
      rw [recorded_recv] at hrecv
      obtain ⟨hbytes, rfl⟩ := Prod.mk.inj hrecv
      exact .more (Prod.ext hbytes rfl) ih

theorem delivers_recorded {n : Nat} {bytes : List UInt8} :
    (∃ log, (api.recorded.on h).Delivers n bytes t (s', log)) ↔
      (api.on h).Delivers n bytes t.1 s' := by
  constructor
  · exact fun ⟨_, hd⟩ => delivers_of_recorded hd
  · intro hd
    obtain ⟨s, log⟩ := t
    dsimp only at hd
    induction hd generalizing log with
    | done => exact ⟨log, .done⟩
    | @more n bytes rest s s₁ s₂ hrecv _ ih =>
        obtain ⟨log', hrest⟩ := ih (log ++ [.recv h])
        refine ⟨log', .more ?_ hrest⟩
        rw [recorded_recv, hrecv]

/-- A request that is taken and answered with a response of one piece. -/
theorem answered_recorded {size : Nat} {Check : List UInt8 → Prop} :
    (∃ log t₁ resp, (api.recorded.on h).Takes r t t₁ ∧
      (api.recorded.on h).Responds size resp t₁ (s', log) ∧ Check resp) ↔
    ∃ s₁ resp, (api.on h).Takes r t.1 s₁ ∧ (api.on h).Responds size resp s₁ s' ∧ Check resp := by
  constructor
  · rintro ⟨log, t₁, resp, htakes, hresp, hcheck⟩
    exact ⟨t₁.1, resp, takes_recorded.mp ⟨t₁.2, htakes⟩, responds_recorded.mp ⟨log, hresp⟩,
      hcheck⟩
  · rintro ⟨s₁, resp, htakes, hresp, hcheck⟩
    obtain ⟨log₁, htakes⟩ := takes_recorded.mpr htakes
    obtain ⟨log, hresp⟩ := (responds_recorded (t := (s₁, log₁))).mpr hresp
    exact ⟨log, (s₁, log₁), resp, htakes, hresp, hcheck⟩

theorem serves_recorded :
    (∃ log, (api.recorded.on h).Serves r data t (s', log)) ↔
      (api.on h).Serves r data t.1 s' := by
  unfold Winsock.Serves
  split
  · constructor
    · rintro ⟨log, t₁, resp, htakes, hresp, hcheck⟩
      exact ⟨t₁.1, resp, takes_recorded.mp ⟨t₁.2, htakes⟩, delivers_recorded.mp ⟨log, hresp⟩,
        hcheck⟩
    · rintro ⟨s₁, resp, htakes, hresp, hcheck⟩
      obtain ⟨log₁, htakes⟩ := takes_recorded.mpr htakes
      obtain ⟨log, hresp⟩ := (delivers_recorded (t := (s₁, log₁))).mpr hresp
      exact ⟨log, (s₁, log₁), resp, htakes, hresp, hcheck⟩
  · constructor
    · rintro ⟨log, t₁, t₂, resp, htakes, hresp, hdata, hcheck⟩
      exact ⟨t₁.1, t₂.1, resp, takes_recorded.mp ⟨t₁.2, htakes⟩,
        responds_recorded.mp ⟨t₂.2, hresp⟩, delivers_recorded.mp ⟨log, hdata⟩, hcheck⟩
    · rintro ⟨s₁, s₂, resp, htakes, hresp, hdata, hcheck⟩
      obtain ⟨log₁, htakes⟩ := takes_recorded.mpr htakes
      obtain ⟨log₂, hresp⟩ := (responds_recorded (t := (s₁, log₁))).mpr hresp
      obtain ⟨log, hdata⟩ := (delivers_recorded (t := (s₂, log₂))).mpr hdata
      exact ⟨log, (s₁, log₁), (s₂, log₂), resp, htakes, hresp, hdata, hcheck⟩
  · exact answered_recorded
  · exact answered_recorded

theorem servesAll_recorded {requests : List Request} :
    (∃ log, (api.recorded.on h).ServesAll requests t (s', log)) ↔
      (api.on h).ServesAll requests t.1 s' := by
  induction requests generalizing t with
  | nil =>
      constructor
      · rintro ⟨log, hs⟩
        cases hs
        exact .nil
      · intro hs
        cases hs
        exact ⟨t.2, .nil⟩
  | cons r requests ih =>
      constructor
      · rintro ⟨log, hs⟩
        cases hs with
        | @cons _ _ data _ t₁ _ hr hrest =>
            exact .cons (serves_recorded.mp ⟨t₁.2, hr⟩) (ih.mp ⟨log, hrest⟩)
      · intro hs
        cases hs with
        | @cons _ _ data _ s₁ _ hr hrest =>
            obtain ⟨log₁, hr⟩ := serves_recorded.mpr hr
            obtain ⟨log, hrest⟩ := (ih (t := (s₁, log₁))).mpr hrest
            exact ⟨log, .cons hr hrest⟩

/-- A ping tells whether it was served. -/
theorem emmcPing_served {P : Request → Prop} (fuel : Nat) (hP : P .ping) :
    Reports api fuel h P True (∃ data t', (api.recorded.on h).Serves .ping data t t') t
      (emmcPing (api.recorded.on h) t).2 := by
  obtain ⟨ok, hasked, _⟩ := emmcPing_asked fuel
    (Prod.mk.eta (p := emmcPing (api.recorded.on h) t)).symm
  have hserved : (∃ data t', (api.recorded.on h).Serves .ping data t t') ↔ ok = true := by
    rw [hasked.1]
    constructor
    · rintro ⟨data, t', hs⟩
      obtain ⟨s₁, resp, htakes, hresp, hrej, _⟩ := serves_recorded.mp ⟨t'.2, hs⟩
      exact ⟨resp, _, exchange_iff.mpr ⟨s₁, htakes, hresp⟩, hrej⟩
    · rintro ⟨resp, s', hexch, hrej⟩
      obtain ⟨s₁, htakes, hresp⟩ := exchange_iff.mp hexch
      obtain ⟨log, hs⟩ := (serves_recorded (r := .ping)).mpr
        ⟨s₁, resp, htakes, hresp, hrej, rfl⟩
      exact ⟨_, _, hs⟩
  exact hasked.reports hP hserved.mp (fun _ => hserved.mpr)

/-- In a mode that is none, a dump tells whether its INIT was served, and its DEINIT where it comes
to one. -/
theorem dumpUnknown_served {P : Request → Prop} {fuel : Nat} {dumpMode : Int32}
    (hmode : ¬ KnownMode dumpMode) {partition : PartitionEntry} {d : Dump (Recorded σ)}
    (hP : ∀ r, P r)
    (hcall : dumpPartition (api.recorded.on h) fuel dumpMode partition t = some d) :
    Reports api fuel h P True
      (∃ t', (api.recorded.on h).ServesAll (dumpRequests dumpMode partition) t t') t d.world := by
  rw [dumpPartition_unknown hmode] at hcall
  rw [dumpRequests, Device.ofDumpMode_unknown hmode]
  dsimp only at hcall ⊢
  cases hinit : emmcInit (api.recorded.on h) sdDefaultSectorSize sectorsPerCluster t with
  | mk iResult t₁ =>
      rw [hinit] at hcall
      obtain ⟨ok₁, hasked₁, hok₁⟩ := emmcInit_asked fuel hinit
      have hstart : Reports api fuel h P True (0 ≤ iResult) t t₁ :=
        hasked₁.reports (hP _) hok₁.mpr (fun _ => hok₁.mp)
      dsimp only at hcall
      split at hcall
      · rename_i hret
        cases hcall
        refine hstart.congr (iff_of_false (Int.not_le.mpr hret) ?_)
        rintro ⟨t', hs⟩
        cases hs with
        | cons hs _ => exact absurd (emmcInit_of_serves hinit hs).1 (Int.not_le.mpr hret)
      · rename_i hret
        have hserved := emmcInit_iff.mp ⟨iResult, hinit, Int.not_lt.mp hret⟩
        split at hcall
        · rename_i hsize
          rw [if_pos hsize]
          cases hdeinit : emmcDeinit (api.recorded.on h) t₁ with
          | mk iResult' t₂ =>
              rw [hdeinit] at hcall
              cases hcall
              obtain ⟨ok₂, hasked₂, hok₂⟩ := emmcDeinit_asked fuel hdeinit
              have hend : Reports api fuel h P True (0 ≤ iResult') t₁ t₂ :=
                hasked₂.reports (hP _) hok₂.mpr (fun _ => hok₂.mp)
              refine (hstart.trans hend).congr ?_
              rw [and_iff_right (Int.not_lt.mp hret)]
              constructor
              · intro hret'
                exact ⟨t₂, .cons hserved (Winsock.servesAll_singleton.mpr
                  ⟨[], emmcDeinit_iff.mp ⟨iResult', hdeinit, hret'⟩⟩)⟩
              · rintro ⟨t', hs⟩
                cases hs with
                | cons hs hrest =>
                    obtain ⟨_, rfl⟩ := emmcInit_of_serves hinit hs
                    obtain ⟨data, hs⟩ := Winsock.servesAll_singleton.mp hrest
                    exact (emmcDeinit_of_serves hdeinit hs).1
        · rename_i hsize
          rw [if_neg hsize]
          cases hcall
          exact hstart.congr (iff_of_true (Int.not_lt.mp hret) ⟨t₁, .cons hserved .nil⟩)

/-- So does a dump, of all its requests. -/
theorem dumpPartition_served {P : Request → Prop} {fuel : Nat} {dumpMode : Int32}
    {partition : PartitionEntry} {d : Dump (Recorded σ)} (hP : ∀ r, P r)
    (hcall : dumpPartition (api.recorded.on h) fuel dumpMode partition t = some d) :
    Reports api fuel h P True
      (∃ t', (api.recorded.on h).ServesAll (dumpRequests dumpMode partition) t t') t d.world := by
  by_cases hmode : KnownMode dumpMode
  · obtain ⟨dev, rfl⟩ := hmode
    refine ((dumpPartition_reports hcall hP).1.congr ?_).weaken (fun _ => ⟨dev, rfl⟩)
    constructor
    · exact fun hret => ⟨d.world, dumpPartition_serves hcall hret⟩
    · rintro ⟨t', hserves⟩
      obtain ⟨fuel', d', hcall', hret, _⟩ := dumpPartition_of_serves hserves
      rw [eq_of_mono dumpPartition_mono hcall hcall']
      exact hret
  · exact dumpUnknown_served hmode hP hcall

end recorded

end PsvEmmc
