import TlsVpn.ErasureGroup
import TlsVpn.FecSoundness
import TlsVpn.Runs

/-!
Completeness of recovery. One group of the decoder simulates `ErasureGroup` as
long as nothing evicts it and its done-cache slot is left alone; whatever other
groups do is confined to them. The decoder is one that no FEC_MODE control has
reached and that is not in static single-path mode.
-/

namespace TlsVpn.Fec

open Words XorBytes Protocol ErasureGroup

variable {k : Nat} {ic : Option InnerCipher} {payloads : Payloads}

section Confinement

structure Confined (k home : Nat) (before after : FecDecoderInner) (out : Delivered) : Prop where
  others : ∀ start, start ≠ home → after.groups.lookup start = before.groups.lookup start
  done : after.done = before.done ∨ after.done = markDone before.done home k
  numbers : ∀ entry ∈ out, home ≤ entry.1 ∧ entry.1 < home + k

def Whole (k start : Nat) (group : FecGroupState) : Prop :=
  (1 ≤ start ∧ (start - 1) % k = 0) ∧
    (group.parity.isSome = true → group.k = k ∧ start + k ≤ u32Max + 1)

abbrev AllWhole (k : Nat) (groups : Groups) : Prop := AllGroups (Whole k) groups

def ownGroup (groups : Groups) (start : Nat) : FecGroupState :=
  (groups.lookup start).getD FecGroupState.empty

variable (groups : Groups) (inner : FecDecoderInner) (start : Nat)

theorem entry_spared (room : groups.lookup start = none → groups.keys.length < fecMaxPendingGroups) :
    entry groups start = (groups, ownGroup groups start) := by
  have kept : makeSpace groups start = groups := by
    unfold makeSpace
    split
    · rename_i full
      have := room full.2
      omega
    · rfl
  simp only [entry, kept, ownGroup]

theorem ownGroup_whole (whole : AllWhole k groups) :
    (ownGroup groups start).parity.isSome = true →
      (ownGroup groups start).k = k ∧ start + k ≤ u32Max + 1 := by
  unfold ownGroup
  cases found : groups.lookup start with
  | none =>
    intro absurd
    cases absurd
  | some group => exact (whole start group found).2

theorem tryRecover_confined (whole : AllWhole k inner.groups) :
    Confined k start inner (tryRecover inner start k).1 (tryRecover inner start k).2 ∧
      AllWhole k (tryRecover inner start k).1.groups := by
  have idle : Confined k start inner inner [] ∧ AllWhole k inner.groups :=
    ⟨⟨fun _ _ => rfl, Or.inl rfl, fun entry member => by cases member⟩, whole⟩
  unfold tryRecover
  cases found : inner.groups.lookup start with
  | none => exact idle
  | some group =>
    by_cases unset : group.k = 0
    · simp only [if_pos unset]
      exact idle
    · simp only [if_neg unset]
      cases stored : group.parity with
      | none => exact idle
      | some body =>
        obtain ⟨size, last⟩ := (whole start group found).2 (by rw [stored]; rfl)
        rw [size]
        match missed : missingMembers group.gotMask k with
        | [] =>
          refine ⟨⟨?_, Or.inr rfl, fun entry member => by cases member⟩, whole.erase start⟩
          intro other apart
          exact AList.lookup_erase_ne apart
        | [index] =>
          refine ⟨⟨?_, Or.inr rfl, ?_⟩, whole.erase start⟩
          · intro other apart
            exact AList.lookup_erase_ne apart
          · intro entry member
            have inside : index < k := by
              have present : index ∈ missingMembers group.gotMask k := by
                rw [missed]
                exact List.mem_singleton_self index
              exact List.mem_range.mp (List.mem_filter.mp present).1
            rw [List.mem_singleton.mp member]
            unfold u32Max at last
            unfold wrappingAdd
            simp only
            omega
        | _ :: _ :: _ => exact idle

theorem Confined.of_insert {home : Nat} {inner after : FecDecoderInner} {out : Delivered}
    (group : FecGroupState)
    (confined : Confined k home { inner with groups := inner.groups.insert home group } after out) :
    Confined k home inner after out := by
  refine ⟨?_, confined.done, confined.numbers⟩
  intro start apart
  rw [confined.others start apart]
  exact AList.lookup_insert_ne apart

theorem onDataLocked_confined (fullMask : BitVec 64) (seq : Nat) (frame : Bytes) (atLeast : 2 ≤ k)
    (positive : 1 ≤ seq) (whole : AllWhole k inner.groups)
    (room : isDone inner.done (groupStartOf k seq) k = false →
      inner.groups.lookup (groupStartOf k seq) = none →
      inner.groups.keys.length < fecMaxPendingGroups) :
    Confined k (groupStartOf k seq) inner (onDataLocked inner k fullMask seq frame).1
        (onDataLocked inner k fullMask seq frame).2 ∧
      AllWhole k (onDataLocked inner k fullMask seq frame).1.groups := by
  obtain ⟨first, aligned, _, _⟩ := groupStartOf_spec seq positive atLeast
  have silent : ∀ entry ∈ ([] : Delivered), groupStartOf k seq ≤ entry.1 ∧
      entry.1 < groupStartOf k seq + k := fun entry member => by cases member
  have inside := ownGroup_whole inner.groups (groupStartOf k seq) whole
  unfold onDataLocked
  by_cases closed : isDone inner.done (groupStartOf k seq) k = true
  · simp only [closed, ↓reduceIte]
    exact ⟨⟨fun _ _ => rfl, Or.inl rfl, silent⟩, whole⟩
  · simp only [closed, Bool.false_eq_true, ↓reduceIte,
      entry_spared inner.groups (groupStartOf k seq) (room (by simpa using closed))]
    split
    · refine ⟨⟨?_, Or.inl rfl, silent⟩, whole.insert _ _ ⟨⟨first, aligned⟩, inside⟩⟩
      intro other apart
      exact AList.lookup_insert_ne apart
    · split
      · refine ⟨⟨?_, Or.inr rfl, silent⟩, whole.erase _⟩
        intro other apart
        exact AList.lookup_erase_ne apart
      · obtain ⟨confined, kept⟩ := tryRecover_confined
          { inner with
            groups := (inner.groups.insert (groupStartOf k seq)
              ((ownGroup inner.groups (groupStartOf k seq)).absorb (seq - groupStartOf k seq)
                frame)) }
          (groupStartOf k seq) (whole.insert _ _ ⟨⟨first, aligned⟩, inside⟩)
        exact ⟨confined.of_insert, kept⟩

theorem storeParity_confined (lens : List Nat) (body : Bytes)
    (boundary : 1 ≤ start ∧ (start - 1) % k = 0) (last : start + k ≤ u32Max + 1)
    (whole : AllWhole k inner.groups)
    (room : inner.groups.lookup start = none → inner.groups.keys.length < fecMaxPendingGroups) :
    Confined k start inner (storeParity inner k start lens body).1
        ((storeParity inner k start lens body).2.getD []) ∧
      AllWhole k (storeParity inner k start lens body).1.groups := by
  have inside := ownGroup_whole inner.groups start whole
  simp only [storeParity, entry_spared inner.groups start room]
  split
  · refine ⟨⟨?_, Or.inl rfl, fun entry member => by cases member⟩,
      whole.insert _ _ ⟨boundary, inside⟩⟩
    intro other apart
    exact AList.lookup_insert_ne apart
  · obtain ⟨confined, kept⟩ := tryRecover_confined
      { inner with
        groups := (inner.groups.insert start
          { ownGroup inner.groups start with k := k, lens := lens, parity := some body }) }
      start (whole.insert _ _ ⟨boundary, fun _ => ⟨rfl, last⟩⟩)
    exact ⟨confined.of_insert, kept⟩

end Confinement

section Simulation

structure Collects (k : Nat) (payloads : Payloads) (start : Nat) (inner : FecDecoderInner)
    (seen : Finset Nat) (parity : Bool) : Prop where
  pending : isDone inner.done start k = false
  faithful : Faithful k payloads start (ownGroup inner.groups start)
  mask : ∀ member, member < 64 →
    (ownGroup inner.groups start).gotMask.getLsbD member = decide (member ∈ seen)
  bounded : seen ⊆ Finset.range k
  parity : (ownGroup inner.groups start).parity.isSome = parity

def Tracks (k : Nat) (payloads : Payloads) (start : Nat) (inner : FecDecoderInner) : Phase → Prop
  | .closed => isDone inner.done start k = true
  | .collecting seen parity => Collects k payloads start inner seen parity

def framesFor (payloads : Payloads) (start : Nat) (indices : List Nat) : Delivered :=
  indices.map fun index => (start + index, payloads.bytes (start + index))

variable (done : Nat → Nat) (mask : BitVec 64) (inner : FecDecoderInner) (start member : Nat)
  (group : FecGroupState) (seen : Finset Nat) (parity : Bool)

theorem isDone_markDone (positive : 1 ≤ start) : isDone (markDone done start k) start k = true := by
  have nonzero : start ≠ 0 := by omega
  simp [isDone, markDone, nonzero]

theorem isDone_markDone_other (home start : Nat) (apart : start ≠ home)
    (pending : isDone done start k = false) : isDone (markDone done home k) start k = false := by
  unfold markDone
  split
  · simp only [isDone, Bool.and_eq_false_iff, decide_eq_false_iff_not] at pending ⊢
    rcases pending with zero | clear
    · exact Or.inl zero
    · right
      by_cases slot : doneSlot start k = doneSlot home k
      · rw [slot, Function.update_self]
        exact fun same => apart same.symm
      · rw [Function.update_of_ne slot]
        exact clear
  · exact pending

theorem ownGroup_insert (groups : Groups) (start : Nat) (group : FecGroupState) :
    ownGroup (groups.insert start group) start = group := by
  simp [ownGroup]

theorem Confined.tracks {home start : Nat} {before after : FecDecoderInner} {out : Delivered}
    (confined : Confined k home before after out) (apart : start ≠ home) (phase : Phase)
    (spared : isDone before.done start k = true → isDone after.done start k = true)
    (tracks : Tracks k payloads start before phase) : Tracks k payloads start after phase := by
  cases phase with
  | closed => exact spared tracks
  | collecting seen parity =>
    have same : ownGroup after.groups start = ownGroup before.groups start := by
      simp only [ownGroup, confined.others start apart]
    refine ⟨?_, ?_, ?_, tracks.bounded, ?_⟩
    · rcases confined.done with kept | marked
      · rw [kept]
        exact tracks.pending
      · rw [marked]
        exact isDone_markDone_other before.done home start apart tracks.pending
    · rw [same]
      exact tracks.faithful
    · rw [same]
      exact tracks.mask
    · rw [same]
      exact tracks.parity

theorem missingMembers_eq (small : k ≤ 64)
    (agree : ∀ member, member < 64 → mask.getLsbD member = decide (member ∈ seen)) :
    missingMembers mask k = missing k seen := by
  unfold missingMembers missing
  apply List.filter_congr
  intro member present
  have inside : member < 64 := by
    have := List.mem_range.mp present
    omega
  rw [decide_eq_decide, and_bit_eq_zero mask member inside, agree member inside]
  simp

theorem tryRecover_tracks (small : k ≤ 64) (atLeast : 2 ≤ k)
    (found : inner.groups.lookup start = some group)
    (collects : Collects k payloads start inner seen parity) :
    Tracks k payloads start (tryRecover inner start k).1 (settle k seen parity).1 ∧
      (tryRecover inner start k).2 = framesFor payloads start (settle k seen parity).2.toList := by
  have own : ownGroup inner.groups start = group := by
    simp [ownGroup, found]
  have good := collects.faithful
  have flag := collects.parity
  have agree := collects.mask
  rw [own] at good flag agree
  have positive := good.positive
  unfold tryRecover
  simp only [found]
  cases parity with
  | false =>
    have none : group.parity = none := by simpa using flag
    simp only [none, settle]
    split <;> exact ⟨collects, rfl⟩
  | true =>
    obtain ⟨body, stored⟩ := Option.isSome_iff_exists.mp flag
    obtain ⟨size, whole⟩ := good.parity body stored
    have nonzero : group.k ≠ 0 := by omega
    rw [if_neg nonzero]
    simp only [stored, size, missingMembers_eq group.gotMask seen small agree, settle]
    rcases missed : missing k seen with _ | ⟨index, _ | ⟨second, rest⟩⟩
    · exact ⟨isDone_markDone inner.done start positive, rfl⟩
    · refine ⟨isDone_markDone inner.done start positive, ?_⟩
      obtain ⟨inside, unseen⟩ := (mem_missing seen index).mp (by rw [missed]; simp)
      have clear : group.gotMask.getLsbD index = false := by
        rw [agree index (by omega)]
        simpa using unseen
      have others : ∀ other, other < k → other ≠ index →
          group.gotMask.getLsbD other = true := by
        intro other bound apart
        rw [agree other (by omega), decide_eq_true_eq]
        by_contra absent
        have member := (mem_missing seen other).mpr ⟨bound, absent⟩
        rw [missed, List.mem_singleton] at member
        exact apart member
      have number : wrappingAdd start index = start + index := by
        have last := whole.last
        unfold u32Max at last
        unfold wrappingAdd
        omega
      simp only [number, recoverFrame_eq start index group body good stored inside clear others]
      rfl
    · exact ⟨collects, rfl⟩

theorem fullMaskOf_getLsbD (small : k ≤ 64) :
    (fullMaskOf k).getLsbD member = decide (member < k) := by
  unfold fullMaskOf
  split
  · rename_i whole
    rw [BitVec.getLsbD_allOnes, whole]
  · have below : k < 64 := by omega
    have value : (bit k - 1#64).toNat = 2 ^ k - 1 := by
      have power : (2 : Nat) ^ k < 2 ^ 64 := Nat.pow_lt_pow_right (by decide) below
      have one : (bit k).toNat = 2 ^ k := by
        simp only [bit, BitVec.toNat_shiftLeft, Nat.shiftLeft_eq]
        rw [show (1#64).toNat = 1 from rfl, Nat.one_mul, Nat.mod_eq_of_lt power]
      have positive : 1 ≤ 2 ^ k := Nat.one_le_two_pow
      rw [BitVec.toNat_sub_of_le]
      · rw [one]
        rfl
      · rw [BitVec.le_def, one]
        exact positive
    rw [← BitVec.testBit_toNat, value, Nat.testBit_two_pow_sub_one]

theorem or_bit_insert (member : Nat)
    (agree : ∀ other, other < 64 → mask.getLsbD other = decide (other ∈ seen)) :
    ∀ other, other < 64 →
      (mask ||| bit member).getLsbD other = decide (other ∈ insert member seen) := by
  intro other bound
  rw [or_bit_getLsbD _ _ _ bound, agree other bound, Bool.or_comm]
  simp [Finset.mem_insert]

theorem completes_iff (member : Nat) (small : k ≤ 64) (inside : member < k)
    (bounded : seen ⊆ Finset.range k)
    (agree : ∀ other, other < 64 → mask.getLsbD other = decide (other ∈ seen)) :
    mask ||| bit member = fullMaskOf k ↔ insert member seen = Finset.range k := by
  have bits := or_bit_insert mask seen member agree
  constructor
  · intro full
    ext other
    rw [Finset.mem_range]
    constructor
    · intro present
      rcases Finset.mem_insert.mp present with rfl | old
      · exact inside
      · exact Finset.mem_range.mp (bounded old)
    · intro below
      have lit := bits other (by omega)
      rw [full, fullMaskOf_getLsbD other small] at lit
      simpa [below] using lit.symm
  · intro whole
    apply BitVec.eq_of_getLsbD_eq
    intro other bound
    rw [bits other bound, whole, fullMaskOf_getLsbD other small]
    simp

theorem onDataLocked_tracks (seq : Nat) (phase : Phase) (small : k ≤ 64) (atLeast : 2 ≤ k)
    (positive : 1 ≤ seq) (home : groupStartOf k seq = start)
    (room : isDone inner.done start k = false → inner.groups.lookup start = none →
      inner.groups.keys.length < fecMaxPendingGroups) (tracks : Tracks k payloads start inner phase) :
    Tracks k payloads start (onDataLocked inner k (fullMaskOf k) seq (payloads.bytes seq)).1
        (arrive k phase (.member (seq - start))).1 ∧
      (onDataLocked inner k (fullMaskOf k) seq (payloads.bytes seq)).2 =
        framesFor payloads start (arrive k phase (.member (seq - start))).2.toList := by
  obtain ⟨first, aligned, inside, number⟩ := groupStartOf_spec seq positive atLeast
  rw [home] at first aligned inside number
  unfold onDataLocked
  rw [home]
  cases phase with
  | closed =>
    have closed : isDone inner.done start k = true := tracks
    simp only [closed, ↓reduceIte]
    exact ⟨closed, rfl⟩
  | collecting seen parity =>
    have pending := tracks.pending
    simp only [pending, Bool.false_eq_true, ↓reduceIte,
      entry_spared inner.groups start (room pending), arrive]
    have known : (ownGroup inner.groups start).gotMask &&& bit (seq - start) ≠ 0#64 ↔
        seq - start ∈ seen := by
      rw [Ne, and_bit_eq_zero _ _ (by omega), tracks.mask _ (by omega)]
      simp
    by_cases twice : seq - start ∈ seen
    · rw [if_pos (known.mpr twice), if_pos twice]
      refine ⟨⟨pending, ?_, ?_, tracks.bounded, ?_⟩, rfl⟩
      · rw [ownGroup_insert]
        exact tracks.faithful
      · rw [ownGroup_insert]
        exact tracks.mask
      · rw [ownGroup_insert]
        exact tracks.parity
    · rw [if_neg (fun set => twice (known.mp set)), if_neg twice]
      have full := completes_iff (ownGroup inner.groups start).gotMask seen (seq - start) small
        inside tracks.bounded tracks.mask
      by_cases whole : insert (seq - start) seen = Finset.range k
      · rw [if_pos (full.mpr whole), if_pos whole]
        exact ⟨isDone_markDone inner.done start first, rfl⟩
      · rw [if_neg (fun set => whole (full.mp set)), if_neg whole]
        have fresh : (ownGroup inner.groups start).gotMask &&& bit (seq - start) = 0#64 := by
          by_contra set
          exact twice (known.mp set)
        have absorbed := absorb_faithful start (seq - start) _ small inside tracks.faithful fresh
        rw [number] at absorbed
        apply tryRecover_tracks _ start _ _ _ small atLeast (AList.lookup_insert _)
        refine ⟨pending, ?_, ?_, ?_, ?_⟩
        · rw [ownGroup_insert]
          exact absorbed
        · rw [ownGroup_insert]
          exact or_bit_insert _ seen (seq - start) tracks.mask
        · intro other present
          rcases Finset.mem_insert.mp present with rfl | old
          · exact Finset.mem_range.mpr inside
          · exact tracks.bounded old
        · rw [ownGroup_insert]
          exact tracks.parity

theorem storeParity_tracks (lens : List Nat) (body : Bytes) (seen : Finset Nat) (parity : Bool)
    (small : k ≤ 64) (atLeast : 2 ≤ k) (whole : WholeParity k payloads start lens body)
    (room : inner.groups.lookup start = none → inner.groups.keys.length < fecMaxPendingGroups)
    (collects : Collects k payloads start inner seen parity) :
    Tracks k payloads start (storeParity inner k start lens body).1
        (arrive k (.collecting seen parity) .parity).1 ∧
      (storeParity inner k start lens body).2.getD [] =
        framesFor payloads start (arrive k (.collecting seen parity) .parity).2.toList := by
  simp only [storeParity, entry_spared inner.groups start room, collects.parity]
  cases parity with
  | true =>
    simp only [↓reduceIte, arrive]
    refine ⟨⟨collects.pending, ?_, ?_, collects.bounded, ?_⟩, rfl⟩
    · rw [ownGroup_insert]
      exact collects.faithful
    · rw [ownGroup_insert]
      exact collects.mask
    · rw [ownGroup_insert]
      exact collects.parity
  | false =>
    simp only [Bool.false_eq_true, ↓reduceIte, arrive, Option.getD_some]
    apply tryRecover_tracks _ start _ _ _ small atLeast (AList.lookup_insert _)
    refine ⟨collects.pending, ?_, ?_, collects.bounded, ?_⟩
    · rw [ownGroup_insert]
      refine ⟨collects.faithful.positive, collects.faithful.aligned, collects.faithful.acc, ?_⟩
      intro other present
      cases present
      exact ⟨rfl, whole⟩
    · rw [ownGroup_insert]
      exact collects.mask
    · rw [ownGroup_insert]
      rfl

end Simulation

section Decoder

structure Plain (k : Nat) (ic : Option InnerCipher) (decoder : FecDecoder) : Prop where
  size : decoder.k = k
  cipher : decoder.ic = ic
  mask : decoder.fullMask = fullMaskOf k
  multipath : decoder.staticSingle = false
  unfenced : decoder.fence.windowFrom = 0
  boundary : decoder.cleanupBefore = 0
  retired : decoder.retiredBefore = 0

variable {decoder : FecDecoder} (start : Nat)

theorem Plain.maybeRetire (plain : Plain k ic decoder) (progress : Option Nat) :
    decoder.maybeRetireOldGroupsLocked progress = decoder := by
  simp [FecDecoder.maybeRetireOldGroupsLocked, plain.boundary]

theorem Plain.onData (plain : Plain k ic decoder) (seq : Nat) (positive : 1 ≤ seq) (frame : Bytes)
    (nonempty : frame ≠ []) (progress : Option Nat) :
    decoder.onData seq frame progress =
      ({ decoder with inner := (onDataLocked decoder.inner k (fullMaskOf k) seq frame).1 },
        (onDataLocked decoder.inner k (fullMaskOf k) seq frame).2) := by
  have passes : ¬ (frame = [] ∨ seq = 0 ∨ decoder.staticSingle = true) := by
    rintro (empty | zero | static)
    · exact nonempty empty
    · omega
    · rw [plain.multipath] at static
      cases static
  have open_ : decoder.fence.bypassData seq = false := by
    simp [FecRxFenceState.bypassData, plain.unfenced]
  simp only [FecDecoder.onData, if_neg passes, open_, plain.retired, plain.size, plain.mask,
    Bool.false_eq_true, ↓reduceIte, ne_eq, not_true_eq_false, false_and]

theorem Plain.onParityStrict (plain : Plain k ic decoder) (payload : Bytes)
    (before after : Option Nat) :
    (∃ message, decoder.onParityStrict payload before after = (decoder, .error message) ∧
        ∀ start, parityHeader k payload = .ok start →
          ∀ parity, readParity ic k payload start ≠ .ok parity) ∨
      ∃ start lens body, parityHeader k payload = .ok start ∧
        readParity ic k payload start = .ok (lens, body) ∧
        decoder.onParityStrict payload before after =
          if isDone decoder.inner.done start k then (decoder, .ok [])
          else ({ decoder with inner := (storeParity decoder.inner k start lens body).1 },
            .ok ((storeParity decoder.inner k start lens body).2.getD [])) := by
  simp only [FecDecoder.onParityStrict, plain.maybeRetire, plain.multipath, plain.retired,
    plain.size, plain.cipher, Bool.false_eq_true, ↓reduceIte, ne_eq, not_true_eq_false, false_and]
  cases header : parityHeader k payload with
  | error message =>
    left
    exact ⟨message, rfl, fun start absurd => by cases absurd⟩
  | ok start =>
    cases read : readParity ic k payload start with
    | error message =>
      left
      refine ⟨message, by simp only [read], ?_⟩
      intro other same parity found
      cases same
      rw [read] at found
      cases found
    | ok parity =>
      right
      refine ⟨start, parity.1, parity.2, rfl, read, ?_⟩
      simp only [read]
      rcases storeParity decoder.inner k start parity.1 parity.2 with ⟨inner, _ | out⟩
      · rfl
      · simp only [FecDecoder.maybeRetireOldGroupsLocked, plain.boundary, true_or, ↓reduceIte,
          Option.getD_some]

theorem groupStartOf_of_mem (seq : Nat) (boundary : 1 ≤ start ∧ (start - 1) % k = 0)
    (inside : start ≤ seq ∧ seq < start + k) : groupStartOf k seq = start := by
  have offset : (seq - 1) % k = seq - start := by
    have quotient := Nat.div_add_mod (start - 1) k
    rw [show seq - 1 = k * ((start - 1) / k) + (seq - start) by omega, Nat.mul_add_mod,
      Nat.mod_eq_of_lt (by omega)]
  unfold groupStartOf
  omega

theorem parityHeader_boundary (payload : Bytes) (start : Nat)
    (header : parityHeader k payload = .ok start) : 1 ≤ start ∧ (start - 1) % k = 0 := by
  simp only [parityHeader] at header
  split at header
  · cases header
  · split at header
    · cases header
    · rename_i accepted
      cases header
      constructor
      · by_contra zero
        exact accepted (Or.inl (by omega))
      · by_contra off
        exact accepted (Or.inr (Or.inr off))

end Decoder

section Runs

def Input.Carries (seq : Nat) : Input → Prop
  | .data number _ => number = seq
  | .dataActor number _ => number = seq
  | _ => False

def Input.Brings (record : Bytes) : Input → Prop
  | .control payload _ _ => payload = record
  | .controlActor payload _ => payload = record
  | _ => False

/-- A control record other than FEC_MODE; a parity for `start` is `record`, and
any other is for a group inside the sequence space. -/
def OrdinaryControl (k start : Nat) (record payload : Bytes) : Prop :=
  payload.head? ≠ some controlKindFecMode ∧
    ∀ home, parityHeader k payload = .ok home →
      (home = start → payload = record) ∧ home + k ≤ u32Max + 1

/-- Data and control arrivals, one at a time. A data batch is the sequence of
its frames. -/
def Ordinary (k start : Nat) (record : Bytes) : Input → Prop
  | .data _ _ => True
  | .dataActor _ _ => True
  | .control payload _ _ => OrdinaryControl k start record payload
  | .controlActor payload _ => OrdinaryControl k start record payload
  | _ => False

def enters (decoder : FecDecoder) : Input → Option Nat
  | .data seq _ => entersData seq
  | .dataActor seq _ => entersData seq
  | .control payload _ _ => entersParity payload
  | .controlActor payload _ => entersParity payload
  | _ => none
where
  unlessDone (start : Nat) : Option Nat :=
    if isDone decoder.inner.done start decoder.k then none else some start
  entersData (seq : Nat) : Option Nat :=
    if seq = 0 then none else unlessDone (groupStartOf decoder.k seq)
  entersParity (payload : Bytes) : Option Nat :=
    match parityHeader decoder.k payload with
    | .error _ => none
    | .ok start =>
      match readParity decoder.ic decoder.k payload start with
      | .error _ => none
      | .ok _ => unlessDone start

/-- The two disturbances left out: a new group beyond the pending cap, and a
done-cache slot that stops naming `start`. -/
structure Spares (payloads : Payloads) (k start : Nat) (decoder : FecDecoder) (input : Input) :
    Prop where
  room : ∀ home, enters decoder input = some home → decoder.inner.groups.lookup home = none →
    decoder.inner.groups.keys.length < fecMaxPendingGroups
  slot : isDone decoder.inner.done start k = true →
    isDone (respond payloads decoder input).1.inner.done start k = true

def arrivalOf (k start : Nat) (record : Bytes) : Input → Option Arrival
  | .data seq _ => if start ≤ seq ∧ seq < start + k then some (.member (seq - start)) else none
  | .dataActor seq _ =>
    if start ≤ seq ∧ seq < start + k then some (.member (seq - start)) else none
  | .control payload _ _ => if payload = record then some .parity else none
  | .controlActor payload _ => if payload = record then some .parity else none
  | _ => none

def advance (k : Nat) (phase : Phase) : Option Arrival → Phase × Option Nat
  | none => (phase, none)
  | some arrival => arrive k phase arrival

def ownFrames (k start : Nat) (out : Delivered) : Delivered :=
  out.filter fun entry => start ≤ entry.1 ∧ entry.1 < start + k

structure Watched (k : Nat) (ic : Option InnerCipher) (payloads : Payloads) (start : Nat)
    (decoder : FecDecoder) (phase : Phase) : Prop where
  plain : Plain k ic decoder
  whole : AllWhole k decoder.inner.groups
  tracks : Tracks k payloads start decoder.inner phase

variable {decoder : FecDecoder} {home : Nat} {before after : FecDecoderInner} {out : Delivered}
  (input : Input) (payload : Bytes) (index : Nat)

theorem Plain.withInner (plain : Plain k ic decoder) (inner : FecDecoderInner) :
    Plain k ic { decoder with inner := inner } :=
  ⟨plain.size, plain.cipher, plain.mask, plain.multipath, plain.unfenced, plain.boundary,
    plain.retired⟩

theorem Confined.own_eq (confined : Confined k home before after out) :
    ownFrames k home out = out := by
  apply List.filter_eq_self.mpr
  intro entry member
  simpa using confined.numbers entry member

theorem Confined.own_other {start : Nat} (confined : Confined k home before after out)
    (apart : start ≠ home) (here : 1 ≤ start ∧ (start - 1) % k = 0)
    (there : 1 ≤ home ∧ (home - 1) % k = 0) : ownFrames k start out = [] := by
  apply List.filter_eq_nil_iff.mpr
  intro entry member
  have numbers := confined.numbers entry member
  simp only [decide_eq_true_eq]
  intro inside
  apply apart
  rw [← groupStartOf_of_mem start entry.1 here inside,
    ← groupStartOf_of_mem home entry.1 there numbers]

variable {start : Nat} {record : Bytes}

theorem Watched.elsewhere {phase : Phase} {inner : FecDecoderInner}
    (watched : Watched k ic payloads start decoder phase)
    (confined : Confined k home decoder.inner inner out) (whole : AllWhole k inner.groups)
    (apart : home ≠ start) (here : 1 ≤ start ∧ (start - 1) % k = 0)
    (there : 1 ≤ home ∧ (home - 1) % k = 0)
    (slot : isDone decoder.inner.done start k = true → isDone inner.done start k = true) :
    Watched k ic payloads start { decoder with inner := inner } phase ∧
      ownFrames k start out = [] := by
  refine ⟨⟨watched.plain.withInner inner, whole, ?_⟩, ?_⟩
  · exact confined.tracks (Ne.symm apart) phase slot watched.tracks
  · exact confined.own_other (Ne.symm apart) here there

theorem data_watched (record : Bytes) (decoder : FecDecoder) (phase : Phase) (seq : Nat)
    (progress : Option Nat)
    (atLeast : 2 ≤ k) (atMost : k ≤ 64) (boundary : 1 ≤ start ∧ (start - 1) % k = 0)
    (watched : Watched k ic payloads start decoder phase)
    (spares : Spares payloads k start decoder (.data seq progress)) :
    Watched k ic payloads start (respond payloads decoder (.data seq progress)).1
        (advance k phase (arrivalOf k start record (.data seq progress))).1 ∧
      ownFrames k start (respond payloads decoder (.data seq progress)).2 =
        framesFor payloads start
          (advance k phase (arrivalOf k start record (.data seq progress))).2.toList := by
  have plain := watched.plain
  by_cases zero : seq = 0
  · have outside : ¬ (start ≤ seq ∧ seq < start + k) := by omega
    simp only [respond, FecDecoder.onData, zero, true_or, or_true, ↓reduceIte]
    simp only [arrivalOf, ← zero, if_neg outside, advance]
    exact ⟨watched, rfl⟩
  · have positive : 1 ≤ seq := by omega
    have slot := spares.slot
    have room : isDone decoder.inner.done (groupStartOf k seq) k = false →
        decoder.inner.groups.lookup (groupStartOf k seq) = none →
        decoder.inner.groups.keys.length < fecMaxPendingGroups := by
      intro pending
      apply spares.room
      simp [enters, enters.entersData, enters.unlessDone, zero, plain.size, pending]
    simp only [respond, plain.onData seq positive _ (payloads.nonempty seq)] at slot ⊢
    obtain ⟨confined, whole⟩ := onDataLocked_confined decoder.inner (fullMaskOf k) seq
      (payloads.bytes seq) atLeast positive watched.whole room
    obtain ⟨first, aligned, offset, number⟩ := groupStartOf_spec seq positive atLeast
    by_cases home : groupStartOf k seq = start
    · have inside : start ≤ seq ∧ seq < start + k := by omega
      rw [home] at room confined
      obtain ⟨tracks, frames⟩ := onDataLocked_tracks decoder.inner start seq phase atMost atLeast
        positive home room watched.tracks
      simp only [arrivalOf, if_pos inside, advance]
      refine ⟨⟨plain.withInner _, whole, tracks⟩, ?_⟩
      rw [confined.own_eq, frames]
    · have outside : ¬ (start ≤ seq ∧ seq < start + k) := fun inside =>
        home (groupStartOf_of_mem start seq boundary inside)
      simp only [arrivalOf, if_neg outside, advance]
      exact watched.elsewhere confined whole home boundary ⟨first, aligned⟩ slot

theorem controlKind_not_mode (kind : UInt8) (differs : payload.head? ≠ some controlKindFecMode)
    (known : controlKind payload = .ok kind) : kind = controlKindFecParity := by
  cases payload with
  | nil => cases known
  | cons first rest =>
    simp only [controlKind] at known
    split at known
    · rename_i either
      cases known
      rcases either with parity | mode
      · exact parity
      · exact absurd (by rw [mode]; rfl) differs
    · cases known

theorem controlKind_parity (kind : payload.head? = some controlKindFecParity) :
    controlKind payload = .ok controlKindFecParity := by
  cases payload with
  | nil => cases kind
  | cons first rest =>
    have same : first = controlKindFecParity := by simpa using kind
    simp [controlKind, same]

theorem late_parity_watched {phase : Phase} (watched : Watched k ic payloads start decoder phase)
    (closed : isDone decoder.inner.done start k = true) :
    Watched k ic payloads start decoder (arrive k phase .parity).1 ∧
      ownFrames k start [] = framesFor payloads start (arrive k phase .parity).2.toList := by
  cases phase with
  | closed => exact ⟨watched, rfl⟩
  | collecting seen flag =>
    have pending := watched.tracks.pending
    rw [closed] at pending
    cases pending

theorem own_parity_watched {phase : Phase} {lens : List Nat} {body : Bytes} (atLeast : 2 ≤ k)
    (atMost : k ≤ 64) (watched : Watched k ic payloads start decoder phase)
    (pending : ¬ isDone decoder.inner.done start k = true)
    (parity : WholeParity k payloads start lens body)
    (space : decoder.inner.groups.lookup start = none →
      decoder.inner.groups.keys.length < fecMaxPendingGroups)
    (confined : Confined k start decoder.inner (storeParity decoder.inner k start lens body).1
      ((storeParity decoder.inner k start lens body).2.getD []))
    (whole : AllWhole k (storeParity decoder.inner k start lens body).1.groups) :
    Watched k ic payloads start
        { decoder with inner := (storeParity decoder.inner k start lens body).1 }
        (arrive k phase .parity).1 ∧
      ownFrames k start ((storeParity decoder.inner k start lens body).2.getD []) =
        framesFor payloads start (arrive k phase .parity).2.toList := by
  cases phase with
  | closed => exact absurd watched.tracks pending
  | collecting seen flag =>
    obtain ⟨tracks, frames⟩ := storeParity_tracks decoder.inner start lens body seen flag
      atMost atLeast parity space watched.tracks
    refine ⟨⟨watched.plain.withInner _, whole, tracks⟩, ?_⟩
    rw [confined.own_eq, frames]

theorem control_watched (decoder : FecDecoder) (phase : Phase) (payload : Bytes)
    (before after : Option Nat) (atLeast : 2 ≤ k) (atMost : k ≤ 64)
    (parity : AlignedParity k ic payloads start record)
    (ordinary : OrdinaryControl k start record payload)
    (watched : Watched k ic payloads start decoder phase)
    (spares : Spares payloads k start decoder (.control payload before after)) :
    Watched k ic payloads start (respond payloads decoder (.control payload before after)).1
        (advance k phase (arrivalOf k start record (.control payload before after))).1 ∧
      ownFrames k start (respond payloads decoder (.control payload before after)).2 =
        framesFor payloads start
          (advance k phase (arrivalOf k start record (.control payload before after))).2.toList := by
  have plain := watched.plain
  obtain ⟨⟨positive, aligned, _⟩, header, body, read, isBody⟩ := parity.reads atLeast atMost
  have kind : record.head? = some controlKindFecParity := by
    obtain ⟨_, shape, _⟩ := parity.recordOf
    rw [shape]
    rfl
  -- a record that changes nothing must not be the group's own
  have refused : payload ≠ record →
      Watched k ic payloads start decoder
          (advance k phase (arrivalOf k start record (.control payload before after))).1 ∧
        ownFrames k start [] = framesFor payloads start
          (advance k phase (arrivalOf k start record (.control payload before after))).2.toList := by
    intro other
    simp only [arrivalOf, if_neg other, advance]
    exact ⟨watched, rfl⟩
  have slot := spares.slot
  have room := spares.room
  simp only [respond, FecDecoder.onControl, enters, enters.entersParity, enters.unlessDone,
    plain.size, plain.cipher] at slot room ⊢
  cases known : controlKind payload with
  | error message =>
    apply refused
    rintro rfl
    rw [controlKind_parity payload kind] at known
    cases known
  | ok found =>
    have isParity := controlKind_not_mode payload found ordinary.1 known
    simp only [known, isParity, ↓reduceIte] at slot ⊢
    rcases plain.onParityStrict payload before after with
      ⟨message, result, unreadable⟩ | ⟨home, lens, other, found, parsed, result⟩
    · rw [result]
      apply refused
      rintro rfl
      exact unreadable start header _ read
    · have boundary := parityHeader_boundary payload home found
      obtain ⟨mine, last⟩ := ordinary.2 home found
      by_cases closed : isDone decoder.inner.done home k = true
      · rw [if_pos closed] at result
        rw [result]
        by_cases same : payload = record
        · subst same
          rw [header] at found
          cases found
          simp only [arrivalOf, ↓reduceIte, advance]
          exact late_parity_watched watched closed
        · exact refused same
      · rw [if_neg closed] at result
        rw [result] at slot ⊢
        have space : decoder.inner.groups.lookup home = none →
            decoder.inner.groups.keys.length < fecMaxPendingGroups := by
          apply room home
          simp only [found, parsed, closed, Bool.false_eq_true, ↓reduceIte]
        obtain ⟨confined, whole⟩ := storeParity_confined decoder.inner home lens other boundary
          last watched.whole space
        by_cases same : home = start
        · subst same
          have own := mine rfl
          subst own
          rw [read] at parsed
          cases parsed
          simp only [arrivalOf, ↓reduceIte, advance]
          exact own_parity_watched atLeast atMost watched closed ⟨rfl, isBody, last⟩ space
            confined whole
        · have differs : payload ≠ record := by
            rintro rfl
            rw [header] at found
            cases found
            exact same rfl
          simp only [arrivalOf, if_neg differs, advance]
          exact watched.elsewhere confined whole same ⟨positive, aligned⟩ boundary slot

theorem respond_watched (decoder : FecDecoder) (phase : Phase) (input : Input)
    (atLeast : 2 ≤ k) (atMost : k ≤ 64) (parity : AlignedParity k ic payloads start record)
    (ordinary : Ordinary k start record input) (watched : Watched k ic payloads start decoder phase)
    (spares : Spares payloads k start decoder input) :
    Watched k ic payloads start (respond payloads decoder input).1
        (advance k phase (arrivalOf k start record input)).1 ∧
      ownFrames k start (respond payloads decoder input).2 =
        framesFor payloads start (advance k phase (arrivalOf k start record input)).2.toList := by
  obtain ⟨⟨positive, aligned, _⟩, _⟩ := parity.reads atLeast atMost
  cases input with
  | data seq progress =>
    exact data_watched record decoder phase seq progress atLeast atMost ⟨positive, aligned⟩ watched
      spares
  | dataActor seq expected =>
    have slot := spares.slot
    rw [respond_dataActor] at slot ⊢
    exact data_watched record decoder phase seq (some expected) atLeast atMost
      ⟨positive, aligned⟩ watched ⟨spares.room, slot⟩
  | control payload before after =>
    exact control_watched decoder phase payload before after atLeast atMost parity ordinary
      watched spares
  | controlActor payload expected =>
    have slot := spares.slot
    rw [respond_controlActor] at slot ⊢
    exact control_watched decoder phase payload (some expected) (some expected) atLeast atMost
      parity ordinary watched ⟨spares.room, slot⟩
  | dataBatch entries => exact ordinary.elim
  | staticSingle single => exact ordinary.elim
  | reset => exact ordinary.elim

def respondStep (payloads : Payloads) (decoder : FecDecoder) (input : Input) : Option FecDecoder :=
  some (respond payloads decoder input).1

theorem respondAll_watched (decoder : FecDecoder) (phase : Phase) (inputs : List Input)
    (atLeast : 2 ≤ k) (atMost : k ≤ 64) (parity : AlignedParity k ic payloads start record)
    (ordinary : ∀ input ∈ inputs, Ordinary k start record input)
    (watched : Watched k ic payloads start decoder phase)
    (spared : Runs.Along (respondStep payloads) (Spares payloads k start) decoder inputs) :
    ownFrames k start (respondAll payloads decoder inputs).2 =
      framesFor payloads start
        (arriveAll k phase (inputs.filterMap (arrivalOf k start record))).2 := by
  induction inputs generalizing decoder phase with
  | nil => rfl
  | cons input rest ih =>
    obtain ⟨now, later⟩ := spared
    obtain ⟨next, frames⟩ := respond_watched decoder phase input atLeast atMost parity
      (ordinary input List.mem_cons_self) watched now
    have tail := ih _ _ (fun other member => ordinary other (List.mem_cons_of_mem input member))
      next later
    simp only [respondAll]
    rw [ownFrames, List.filter_append, ← ownFrames, ← ownFrames, frames, tail]
    cases arrived : arrivalOf k start record input with
    | none =>
      rw [List.filterMap_cons_none arrived]
      rfl
    | some arrival =>
      rw [List.filterMap_cons_some arrived]
      simp only [arriveAll, advance, framesFor, List.map_append]

theorem arrivalOf_member (inside : index < k) :
    arrivalOf k start record input = some (.member index) ↔ input.Carries (start + index) := by
  have number : ∀ seq, (if start ≤ seq ∧ seq < start + k then some (Arrival.member (seq - start))
      else none) = some (.member index) ↔ seq = start + index := by
    intro seq
    by_cases bounds : start ≤ seq ∧ seq < start + k
    · rw [if_pos bounds, Option.some.injEq, Arrival.member.injEq]
      omega
    · rw [if_neg bounds]
      constructor
      · intro absurd
        cases absurd
      · intro same
        exact absurd (by omega) bounds
  cases input with
  | data seq progress => exact number seq
  | dataActor seq expected => exact number seq
  | control payload before after => simp [arrivalOf, Input.Carries]
  | controlActor payload expected => simp [arrivalOf, Input.Carries]
  | dataBatch entries => simp [arrivalOf, Input.Carries]
  | staticSingle single => simp [arrivalOf, Input.Carries]
  | reset => simp [arrivalOf, Input.Carries]

theorem arrivalOf_parity : arrivalOf k start record input = some .parity ↔ input.Brings record := by
  cases input with
  | data seq progress => simp [arrivalOf, Input.Brings]
  | dataActor seq expected => simp [arrivalOf, Input.Brings]
  | control payload before after => simp [arrivalOf, Input.Brings]
  | controlActor payload expected => simp [arrivalOf, Input.Brings]
  | dataBatch entries => simp [arrivalOf, Input.Brings]
  | staticSingle single => simp [arrivalOf, Input.Brings]
  | reset => simp [arrivalOf, Input.Brings]

theorem arrivalOf_bounded (arrived : arrivalOf k start record input = some (.member index)) :
    index < k := by
  have number : ∀ seq, (if start ≤ seq ∧ seq < start + k then some (Arrival.member (seq - start))
      else none) = some (.member index) → index < k := by
    intro seq
    split
    · intro same
      have := Arrival.member.inj (Option.some.inj same)
      omega
    · intro absurd
      cases absurd
  cases input with
  | data seq progress => exact number seq arrived
  | dataActor seq expected => exact number seq arrived
  | control payload before after => simp [arrivalOf] at arrived
  | controlActor payload expected => simp [arrivalOf] at arrived
  | dataBatch entries => simp [arrivalOf] at arrived
  | staticSingle single => simp [arrivalOf] at arrived
  | reset => simp [arrivalOf] at arrived

/-- A decoder outside static single-path mode that no FEC_MODE control and no
frame of the group has reached. -/
structure Ready (k : Nat) (ic : Option InnerCipher) (start : Nat) (decoder : FecDecoder) :
    Prop where
  plain : Plain k ic decoder
  whole : AllWhole k decoder.inner.groups
  absent : decoder.inner.groups.lookup start = none
  pending : isDone decoder.inner.done start k = false

theorem Ready.watched (ready : Ready k ic start decoder)
    (boundary : 1 ≤ start ∧ (start - 1) % k = 0) :
    Watched k ic payloads start decoder (.collecting ∅ false) := by
  have own : ownGroup decoder.inner.groups start = FecGroupState.empty := by
    simp [ownGroup, ready.absent]
  refine ⟨ready.plain, ready.whole, ready.pending, ?_, ?_, Finset.empty_subset _, ?_⟩
  · rw [own]
    exact empty_faithful start boundary.1 boundary.2
  · intro member _
    rw [own]
    simp [FecGroupState.empty]
  · rw [own]
    rfl

theorem new_ready (atLeast : 2 ≤ k) (atMost : k ≤ 64) : Ready k ic start (FecDecoder.new k ic) := by
  have size := clampFecGroup_of_bounds atLeast atMost
  refine ⟨⟨size, rfl, ?_, rfl, rfl, rfl, rfl⟩, ?_, rfl, ?_⟩
  · rw [FecDecoder.new, size]
  · intro home group found
    cases found
  · simp only [FecDecoder.new, isDone, Bool.and_eq_false_iff, decide_eq_false_iff_not]
    by_cases zero : start = 0
    · exact Or.inl (fun nonzero => nonzero zero)
    · exact Or.inr (decide_eq_false (Ne.symm zero))

theorem Ready.yields_missing (ready : Ready k ic start decoder) (inputs : List Input)
    (atLeast : 2 ≤ k) (atMost : k ≤ 64) (parity : AlignedParity k ic payloads start record)
    (ordinary : ∀ input ∈ inputs, Ordinary k start record input)
    (spared : Runs.Along (respondStep payloads) (Spares payloads k start) decoder inputs)
    (lost : Nat) (inside : lost < k) (never : ∀ input ∈ inputs, ¬ input.Carries (start + lost))
    (others : ∀ index, index < k → index ≠ lost → ∃ input ∈ inputs, input.Carries (start + index))
    (arrives : ∃ input ∈ inputs, input.Brings record) :
    ownFrames k start (respondAll payloads decoder inputs).2 =
      [(start + lost, payloads.bytes (start + lost))] := by
  obtain ⟨⟨positive, aligned, _⟩, _⟩ := parity.reads atLeast atMost
  rw [respondAll_watched decoder (.collecting ∅ false) inputs atLeast atMost parity ordinary
    (ready.watched ⟨positive, aligned⟩) spared,
    recovers_lost _ lost inside _ ∅ false (by simp) (by simp)]
  · rfl
  · intro index bound apart
    obtain ⟨input, present, carries⟩ := others index bound apart
    exact Or.inr (List.mem_filterMap.mpr
      ⟨input, present, (arrivalOf_member input index bound).mpr carries⟩)
  · obtain ⟨input, present, brings⟩ := arrives
    exact Or.inr (List.mem_filterMap.mpr ⟨input, present, (arrivalOf_parity input).mpr brings⟩)
  · intro member
    obtain ⟨input, present, arrived⟩ := List.mem_filterMap.mp member
    exact never input present ((arrivalOf_member input lost inside).mp arrived)

/-- FEC completeness and exactness for one group: if one member never arrives
and the others and the parity do, the group yields that member and nothing
else; if every member arrives before the parity, it yields nothing. -/
theorem group_yields_missing_member (k : Nat) (ic : Option InnerCipher) (payloads : Payloads)
    (start : Nat) (record : Bytes) (decoder : FecDecoder) (inputs : List Input)
    (atLeast : 2 ≤ k) (atMost : k ≤ 64) (parity : AlignedParity k ic payloads start record)
    (ready : Ready k ic start decoder)
    (ordinary : ∀ input ∈ inputs, Ordinary k start record input)
    (spared : Runs.Along (respondStep payloads) (Spares payloads k start) decoder inputs) :
    (∀ lost, lost < k → (∀ input ∈ inputs, ¬ input.Carries (start + lost)) →
      (∀ index, index < k → index ≠ lost → ∃ input ∈ inputs, input.Carries (start + index)) →
      (∃ input ∈ inputs, input.Brings record) →
      ownFrames k start (respondAll payloads decoder inputs).2 =
        [(start + lost, payloads.bytes (start + lost))]) ∧
    ((∀ before input after, inputs = before ++ input :: after → input.Brings record →
        ∀ index, index < k → ∃ earlier ∈ before, earlier.Carries (start + index)) →
      ownFrames k start (respondAll payloads decoder inputs).2 = []) := by
  constructor
  · intro lost inside never others arrives
    exact ready.yields_missing inputs atLeast atMost parity ordinary spared lost inside never others
      arrives
  · intro late
    obtain ⟨⟨positive, aligned, _⟩, _⟩ := parity.reads atLeast atMost
    rw [respondAll_watched decoder (.collecting ∅ false) inputs atLeast atMost parity ordinary
      (ready.watched ⟨positive, aligned⟩) spared]
    rw [silent_when_complete _ ∅ (Finset.empty_subset _)]
    · rfl
    · intro empty
      have zero : 0 ∈ (∅ : Finset Nat) := empty ▸ Finset.mem_range.mpr (by omega)
      simp at zero
    · intro index member
      obtain ⟨input, _, arrived⟩ := List.mem_filterMap.mp member
      exact arrivalOf_bounded input index arrived
    · intro front back split index inside
      obtain ⟨before, rest, whole, head, tail⟩ := List.filterMap_eq_append_iff.mp split
      obtain ⟨skipped, input, after, parts, dark, arrived, _⟩ :=
        List.filterMap_eq_cons_iff.mp tail
      obtain ⟨earlier, present, carries⟩ := late (before ++ skipped) input after
        (by rw [whole, parts, List.append_assoc]) ((arrivalOf_parity input).mp arrived) index inside
      have counted : arrivalOf k start record earlier = some (.member index) :=
        (arrivalOf_member earlier index inside).mpr carries
      right
      rcases List.mem_append.mp present with front' | silent
      · rw [← head]
        exact List.mem_filterMap.mpr ⟨earlier, front', counted⟩
      · rw [dark earlier silent] at counted
        cases counted

theorem sampleParity_ordinary : OrdinaryControl 3 4 sampleParity sampleParity := by
  refine ⟨by decide +kernel, ?_⟩
  intro home header
  have same : parityHeader 3 sampleParity = .ok 4 := by decide +kernel
  rw [same] at header
  cases header
  exact ⟨fun _ => rfl, by decide⟩

def interleavedInputs : List Input :=
  [.data 6 none, .data 2 none, .control sampleParity none none, .data 6 none, .dataActor 4 1,
    .data 4 none]

theorem interleavedInputs_ordinary :
    ∀ input ∈ interleavedInputs, Ordinary 3 4 sampleParity input := by
  simp [interleavedInputs, Ordinary, sampleParity_ordinary]

theorem interleavedInputs_spared :
    Runs.Along (respondStep samplePayloads) (Spares samplePayloads 3 4)
      (FecDecoder.new 3 (some zeroTagCipher)) interleavedInputs := by
  refine ⟨⟨fun _ _ _ => ?_, ?_⟩, ⟨fun _ _ _ => ?_, ?_⟩, ⟨fun _ _ _ => ?_, ?_⟩,
    ⟨fun _ _ _ => ?_, ?_⟩, ⟨fun _ _ _ => ?_, ?_⟩, ⟨fun _ _ _ => ?_, ?_⟩, trivial⟩
  all_goals decide +kernel

theorem interleavedInputs_arrivals :
    (∀ input ∈ interleavedInputs, ¬ input.Carries (4 + 1)) ∧
      (∀ index, index < 3 → index ≠ 1 →
        ∃ input ∈ interleavedInputs, input.Carries (4 + index)) ∧
      ∃ input ∈ interleavedInputs, input.Brings sampleParity := by
  refine ⟨?_, ?_, ?_⟩
  · simp [interleavedInputs, Input.Carries]
  · intro index inside apart
    interval_cases index
    · exact ⟨.data 4 none, by simp [interleavedInputs], rfl⟩
    · exact absurd rfl apart
    · exact ⟨.data 6 none, by simp [interleavedInputs], rfl⟩
  · exact ⟨.control sampleParity none none, by simp [interleavedInputs], rfl⟩

theorem group_yields_missing_member_sample :
    ownFrames 3 4 (respondAll samplePayloads (FecDecoder.new 3 (some zeroTagCipher))
      interleavedInputs).2 = [(5, samplePayloads.bytes 5)] := by
  obtain ⟨never, others, arrives⟩ := interleavedInputs_arrivals
  exact (group_yields_missing_member 3 (some zeroTagCipher) samplePayloads 4 sampleParity
    (FecDecoder.new 3 (some zeroTagCipher)) interleavedInputs (by decide) (by decide)
    sampleParity_aligned (new_ready (by decide) (by decide)) interleavedInputs_ordinary
    interleavedInputs_spared).1 1 (by decide) never others arrives

end Runs

end TlsVpn.Fec
