import TlsVpn.FecTwins
import TlsVpn.FecValidation
import TlsVpn.Checked

/-!
FEC arithmetic at the end of the sequence space. The decoder is written out once
more with every sum, difference and shift of the source checked for overflow, and
compared with the model, whose numbers wrap. The last group of the space is in
general not complete: a parity for it is accepted all the same, and if just one of
its members lies past the last number, that member is what the decoder takes for
missing.
-/

namespace TlsVpn.Fec

open Words XorBytes Protocol Checked TlsVpn.Topology

section Definitions

def groupStartOfChecked (k seq : Nat) : Checked Nat := do
  let below ← subNat 32 seq 1
  subNat 32 seq (below % k)

def doneSlotChecked (start k : Nat) : Checked Nat := do
  let below ← subNat 32 start 1
  pure (below / k &&& fecDoneMask)

def isDoneChecked (done : Nat → Nat) (start k : Nat) : Checked Bool :=
  if start = 0 then pure false else do
    let slot ← doneSlotChecked start k
    pure (decide (done slot = start))

def markDoneChecked (done : Nat → Nat) (start k : Nat) : Checked (Nat → Nat) :=
  if start = 0 then pure done else do
    let slot ← doneSlotChecked start k
    pure (Function.update done slot start)

/-- `1u64 << index`. -/
def bitChecked (index : Nat) : Checked (BitVec 64) := shl 1#64 index

def fullMaskOfChecked (k : Nat) : Checked (BitVec 64) :=
  if k = 64 then pure (BitVec.allOnes 64) else do
    let top ← bitChecked k
    sub top 1#64

/-- The loop over the members. The source leaves it at the second missing one, so
this does every shift of the source and maybe more. -/
def missingMembersChecked (gotMask : BitVec 64) : List Nat → Checked (List Nat)
  | [] => pure []
  | member :: rest => do
      let mask ← bitChecked member
      let others ← missingMembersChecked gotMask rest
      pure (if gotMask &&& mask = 0#64 then member :: others else others)

def finishGroupChecked (inner : FecDecoderInner) (start k : Nat) (group : FecGroupState) :
    Checked FecDecoderInner := do
  let missing ← missingMembersChecked group.gotMask (List.range group.k)
  let lost ← addNat 64 inner.lost missing.length
  let done ← markDoneChecked inner.done start k
  pure { inner with groups := inner.groups.erase start, lost := lost, done := done }

def tryRecoverChecked (inner : FecDecoderInner) (start k : Nat) :
    Checked (FecDecoderInner × Delivered) :=
  match inner.groups.lookup start with
  | none => pure (inner, [])
  | some group =>
    if group.k = 0 then pure (inner, []) else
      match group.parity with
      | none => pure (inner, [])
      | some parity => do
          let missing ← missingMembersChecked group.gotMask (List.range group.k)
          match missing with
          | [] => do
              let finished ← finishGroupChecked inner start k group
              pure (finished, [])
          | [missing] => do
              let mask ← bitChecked missing
              let finished ← finishGroupChecked inner start k
                { group with gotMask := group.gotMask ||| mask }
              let recovered ← addNat 64 finished.recovered 1
              let seq ← addNat 32 start missing
              pure ({ finished with recovered := recovered },
                [(seq, recoverFrame group parity missing)])
          | _ => pure (inner, [])

def onDataLockedChecked (inner : FecDecoderInner) (k : Nat) (fullMask : BitVec 64) (seq : Nat)
    (frame : Bytes) : Checked (FecDecoderInner × Delivered) := do
  let start ← groupStartOfChecked k seq
  let finished ← isDoneChecked inner.done start k
  if finished then pure (inner, []) else
    let (room, group) := entry inner.groups start
    let member ← subNat 32 seq start
    let mask ← bitChecked member
    if group.gotMask &&& mask ≠ 0#64 then
      pure ({ inner with groups := room.insert start group }, [])
    else if group.gotMask ||| mask = fullMask then do
      let done ← markDoneChecked inner.done start k
      pure ({ inner with groups := room.erase start, done := done }, [])
    else
      let grown := { group with
        gotMask := group.gotMask ||| mask
        acc := xorInto (extend group.acc frame.length) frame }
      tryRecoverChecked { inner with groups := room.insert start grown } start k

def storeParityChecked (inner : FecDecoderInner) (k start : Nat) (lens : List Nat) (body : Bytes) :
    Checked (FecDecoderInner × Option Delivered) :=
  let (room, group) := entry inner.groups start
  if group.parity.isSome then pure ({ inner with groups := room.insert start group }, none)
  else do
    let filled := { group with k := k, lens := lens, parity := some body }
    let result ← tryRecoverChecked { inner with groups := room.insert start filled } start k
    pure (result.1, some result.2)

def onDataChecked (decoder : FecDecoder) (seq : Nat) (frame : Bytes) (progress : Option Nat) :
    Checked (FecDecoder × Delivered) :=
  if frame = [] ∨ seq = 0 ∨ decoder.staticSingle then pure (decoder, [])
  else if decoder.fence.bypassData seq then
    if seq % 256 = 0 then pure (decoder.maybeRetireOldGroupsLocked progress, [])
    else pure (decoder, [])
  else if decoder.retiredBefore ≠ 0 ∧ seq < decoder.retiredBefore then pure (decoder, [])
  else do
    let result ← onDataLockedChecked decoder.inner decoder.k decoder.fullMask seq frame
    pure ({ decoder with inner := result.1 }, result.2)

def parityHeaderChecked (k : Nat) (payload : Bytes) : Checked (Except String Nat) :=
  if payload.length < 7 ∨ byteAt payload 0 ≠ controlKindFecParity then
    pure (.error "malformed FEC_PARITY header")
  else
    let start := readBe32 (payload.drop 1)
    let size := (byteAt payload 5).toNat
    let invalid := "invalid FEC_PARITY start=" ++ toString start ++ " k=" ++ toString size
    if start = 0 ∨ size ≠ k then pure (.error invalid) else do
      let below ← subNat 32 start 1
      pure (if below % k ≠ 0 then .error invalid else .ok start)

def readLensChecked (payload : Bytes) (tag descLen : Nat) :
    Nat → Nat → Checked (Except String (List Nat))
  | 0, _ => pure (.ok [])
  | count + 1, index => do
      let step ← mulNat 64 4 index
      let begins ← addNat 64 6 step
      let _ ← addNat 64 10 step
      let length := readBe32 (payload.drop begins)
      let needed ← addNat 64 length tag
      let room ← subNat 64 payload.length descLen
      if needed > room then pure (.error "invalid FEC_PARITY member length") else do
        let others ← readLensChecked payload tag descLen count (index + 1)
        match others with
        | .ok rest => pure (.ok (length :: rest))
        | .error message => pure (.error message)

def readParityChecked (ic : Option InnerCipher) (k : Nat) (payload : Bytes) (start : Nat) :
    Checked (Except String (List Nat × Bytes)) := do
  let members ← mulNat 64 4 k
  let descLen ← addNat 64 6 members
  let tag := tagLen ic
  let least ← addNat 64 descLen tag
  if payload.length < least then pure (.error "truncated FEC_PARITY descriptor/body") else do
    let read ← readLensChecked payload tag descLen k 0
    match read with
    | .error message => pure (.error message)
    | .ok lens => do
        let ends ← addNat 64 descLen (lens.foldl max 0)
        let _ ← addNat 64 ends tag
        match openBody ic (payload.drop descLen) start (lens.foldl max 0) with
        | .error message => pure (.error message)
        | .ok body => pure (.ok (lens, body))

def onParityStrictChecked (decoder : FecDecoder) (payload : Bytes) (before after : Option Nat) :
    Checked (FecDecoder × Except String Delivered) :=
  if decoder.staticSingle then pure (decoder, .ok []) else do
    let header ← parityHeaderChecked decoder.k payload
    match header with
    | .error message => pure (decoder, .error message)
    | .ok start => do
        let cleaned := decoder.maybeRetireOldGroupsLocked before
        if cleaned.retiredBefore ≠ 0 ∧ start < cleaned.retiredBefore then
          pure (cleaned, .ok [])
        else do
          let read ← readParityChecked cleaned.ic cleaned.k payload start
          match read with
          | .error message => pure (cleaned, .error message)
          | .ok (lens, body) => do
              let finished ← isDoneChecked cleaned.inner.done start cleaned.k
              if finished then pure (cleaned, .ok []) else do
                let stored ← storeParityChecked cleaned.inner cleaned.k start lens body
                match stored with
                | (inner, none) => pure ({ cleaned with inner := inner }, .ok [])
                | (inner, some out) =>
                  pure ({ cleaned with inner := inner }.maybeRetireOldGroupsLocked after, .ok out)

def onControlChecked (decoder : FecDecoder) (payload : Bytes) (before after : Option Nat) :
    Checked (FecDecoder × Except String Delivered) :=
  match controlKind payload with
  | .error message => pure (decoder, .error message)
  | .ok kind =>
    if kind = controlKindFecParity then onParityStrictChecked decoder payload before after
    else
      match FecModeControl.parse payload with
      | .error message => pure (decoder, .error message)
      | .ok control => pure (decoder.handleModeControl control after, .ok [])

end Definitions

section Words

variable {k start seq : Nat}
variable (done : Nat → Nat) (gotMask : BitVec 64)

theorem bitChecked_eq {index : Nat} (inside : index < 64) : bitChecked index = pure (bit index) :=
  shl_eq inside 1#64

theorem groupStartOfChecked_eq (number : 1 ≤ seq) (word : seq ≤ u32Max) :
    groupStartOfChecked k seq = pure (groupStartOf k seq) := by
  unfold u32Max at word
  have below := Nat.mod_le (seq - 1) k
  unfold groupStartOfChecked groupStartOf
  rw [subNat_eq number (by omega), pure_then, subNat_eq (by omega) (by omega)]

section

variable (number : 1 ≤ start) (word : start ≤ u32Max)

include number word

theorem doneSlotChecked_eq : doneSlotChecked start k = pure (doneSlot start k) := by
  unfold u32Max at word
  unfold doneSlotChecked doneSlot
  rw [subNat_eq number (by omega), pure_then]

theorem isDoneChecked_eq : isDoneChecked done start k = pure (isDone done start k) := by
  have nonzero : start ≠ 0 := by omega
  rw [isDoneChecked, if_neg nonzero, doneSlotChecked_eq number word, pure_then]
  simp [isDone, nonzero]

theorem markDoneChecked_eq : markDoneChecked done start k = pure (markDone done start k) := by
  have nonzero : start ≠ 0 := by omega
  rw [markDoneChecked, if_neg nonzero, doneSlotChecked_eq number word, pure_then, markDone,
    if_pos nonzero]

end

theorem missingMembersChecked_eq (members : List Nat) (inside : ∀ member ∈ members, member < 64) :
    missingMembersChecked gotMask members =
      pure (members.filter fun member => gotMask &&& bit member = 0#64) := by
  induction members with
  | nil => rfl
  | cons member rest ih =>
    rw [missingMembersChecked, bitChecked_eq (inside member List.mem_cons_self), pure_then,
      ih fun other present => inside other (List.mem_cons_of_mem member present), pure_then,
      List.filter_cons]
    by_cases clear : gotMask &&& bit member = 0#64 <;> simp [clear]

theorem missingMembersChecked_range (size : k ≤ 64) :
    missingMembersChecked gotMask (List.range k) = pure (missingMembers gotMask k) :=
  missingMembersChecked_eq gotMask (List.range k) fun member present => by
    have := List.mem_range.mp present
    omega

end Words

section Recovery

variable {k start : Nat}

/-- A pending group. Members that arrived have a number, and a stored parity is not for
a group of which just the last member is past the last number. -/
structure Roomy (k start : Nat) (group : FecGroupState) : Prop where
  number : 1 ≤ start
  word : start ≤ u32Max
  size : group.k = 0 ∨ group.k = k
  got : ∀ member < 64, group.gotMask.getLsbD member = true → start + member ≤ u32Max
  parity : group.parity.isSome = true → start + k ≠ u32Max + 2

variable {group : FecGroupState} {before : FecDecoderInner} (inner : FecDecoderInner)

theorem empty_roomy (number : 1 ≤ start) (word : start ≤ u32Max) :
    Roomy k start FecGroupState.empty :=
  ⟨number, word, .inl rfl, by simp [FecGroupState.empty], by simp [FecGroupState.empty]⟩

/-- The only missing member of a group with a parity has a number: were it past the last
one, the member before it would be too, and missing as well. -/
theorem Roomy.missing_fits (roomy : Roomy k start group) (most : k ≤ 64)
    (stored : group.parity.isSome = true) {missing : Nat}
    (only : missingMembers group.gotMask k = [missing]) :
    missing < k ∧ start + missing ≤ u32Max := by
  have member := (mem_missingMembers group.gotMask missing most).mp
    (by rw [only]; exact List.mem_singleton_self missing)
  refine ⟨member.1, ?_⟩
  by_contra past
  have apart := roomy.parity stored
  have word := roomy.word
  have alone : ∀ other, other < k → u32Max < start + other → other = missing := by
    intro other inside beyond
    have clear : group.gotMask.getLsbD other = false := by
      by_contra set
      have := roomy.got other (by omega) (by simpa using set)
      omega
    have listed := (mem_missingMembers group.gotMask other most).mpr ⟨inside, clear⟩
    rw [only] at listed
    exact List.mem_singleton.mp listed
  have last := alone (k - 1) (by omega) (by omega)
  have before := alone (k - 2) (by omega) (by omega)
  omega

structure Recovery (k start : Nat) (before : FecDecoderInner)
    (result : FecDecoderInner × Delivered) : Prop where
  groups : AllGroups (Roomy k) result.1.groups
  recovered : result.1.recovered ≤ before.recovered + 1
  lost : result.1.lost = before.lost
  numbers : ∀ entry ∈ result.2, ∃ missing < k, entry.1 = start + missing ∧
    start + missing ≤ u32Max

theorem Recovery.idle {after : FecDecoderInner} (groups : AllGroups (Roomy k) after.groups)
    (recovered : after.recovered = before.recovered) (lost : after.lost = before.lost) :
    Recovery k start before (after, []) :=
  ⟨groups, by rw [recovered]; exact Nat.le_succ _, lost, by nofun⟩

structure Counting (inner : FecDecoderInner) : Prop where
  recovered : inner.recovered + 1 < 2 ^ 64
  lost : inner.lost < 2 ^ 64

theorem finishGroupChecked_eq (group : FecGroupState) (counting : Counting inner)
    (number : 1 ≤ start) (word : start ≤ u32Max) (size : group.k ≤ 64)
    (complete : missingMembers group.gotMask group.k = []) :
    finishGroupChecked inner start k group = pure (finishGroup inner start k group) := by
  have lost := counting.lost
  simp only [finishGroupChecked, finishGroup, missingMembersChecked_range _ size, complete,
    List.length_nil, pure_then, markDoneChecked_eq inner.done number word]
  rw [addNat_eq (by omega), pure_then]

theorem tryRecover_recovery (most : k ≤ 64) (all : AllGroups (Roomy k) inner.groups)
    (counting : Counting inner) :
    tryRecoverChecked inner start k = pure (tryRecover inner start k) ∧
      Recovery k start inner (tryRecover inner start k) := by
  have still : Recovery k start inner (inner, []) := .idle all rfl rfl
  unfold tryRecoverChecked tryRecover
  cases found : inner.groups.lookup start with
  | none => exact ⟨rfl, still⟩
  | some group =>
    have roomy := all start group found
    dsimp only
    by_cases unset : group.k = 0
    · rw [if_pos unset, if_pos unset]
      exact ⟨rfl, still⟩
    rw [if_neg unset, if_neg unset]
    have size := roomy.size.resolve_left unset
    cases stored : group.parity with
    | none => exact ⟨rfl, still⟩
    | some parity =>
      dsimp only
      rw [size, missingMembersChecked_range _ most, pure_then]
      match listed : missingMembers group.gotMask k with
      | [] =>
        dsimp only
        rw [finishGroupChecked_eq inner group counting roomy.number roomy.word (by omega)
          (size ▸ listed), pure_then]
        refine ⟨rfl, .idle (all.erase start) rfl ?_⟩
        simp [finishGroup, size, listed]
      | [missing] =>
        obtain ⟨inside, fits⟩ := roomy.missing_fits most (by rw [stored]; rfl) listed
        have filled := missingMembers_filled group.gotMask most listed
        have recovered := counting.recovered
        unfold u32Max at fits
        dsimp only
        rw [bitChecked_eq (by omega), pure_then,
          finishGroupChecked_eq inner ⟨k, group.lens, group.gotMask ||| bit missing, group.acc,
            some parity⟩ counting roomy.number roomy.word most filled, pure_then,
          addNat_eq (show (finishGroup inner start k _).recovered + 1 < 2 ^ 64 from recovered),
          pure_then, addNat_eq (by omega), pure_then]
        have number : wrappingAdd start missing = start + missing := by
          unfold wrappingAdd
          omega
        rw [number]
        refine ⟨rfl, all.erase start, Nat.le_refl _, ?_, ?_⟩
        · simp [finishGroup, filled]
        · intro entry present
          cases List.mem_singleton.mp present
          exact ⟨missing, inside, rfl, by unfold u32Max; omega⟩
      | _ :: _ :: _ => exact ⟨rfl, still⟩

theorem Recovery.after {middle : FecDecoderInner} {result : FecDecoderInner × Delivered}
    (recovery : Recovery k start middle result) (recovered : middle.recovered = before.recovered)
    (lost : middle.lost = before.lost) : Recovery k start before result :=
  ⟨recovery.groups, recovered ▸ recovery.recovered, lost ▸ recovery.lost, recovery.numbers⟩

theorem Roomy.absorb (roomy : Roomy k start group) {member : Nat} (frame : Bytes)
    (fits : start + member ≤ u32Max) : Roomy k start (group.absorb member frame) := by
  refine ⟨roomy.number, roomy.word, roomy.size, ?_, roomy.parity⟩
  intro other inside set
  simp only [FecGroupState.absorb, or_bit_getLsbD _ _ _ inside, Bool.or_eq_true,
    decide_eq_true_eq] at set
  rcases set with old | same
  · exact roomy.got other inside old
  · exact same ▸ fits

theorem onDataLocked_recovery (fullMask : BitVec 64) {seq : Nat} (frame : Bytes) (least : 2 ≤ k)
    (most : k ≤ 64) (number : 1 ≤ seq) (word : seq ≤ u32Max)
    (all : AllGroups (Roomy k) inner.groups) (counting : Counting inner) :
    onDataLockedChecked inner k fullMask seq frame = pure (onDataLocked inner k fullMask seq frame) ∧
      Recovery k (groupStartOf k seq) inner (onDataLocked inner k fullMask seq frame) := by
  obtain ⟨first, aligned, inside, sum⟩ := groupStartOf_spec seq number least
  have below : groupStartOf k seq ≤ u32Max := by omega
  obtain ⟨room, good⟩ := all.entry (groupStartOf k seq) (empty_roomy first below)
  unfold onDataLockedChecked onDataLocked
  rw [groupStartOfChecked_eq number word, pure_then]
  generalize groupStartOf k seq = start at *
  rw [isDoneChecked_eq inner.done first below, pure_then]
  by_cases done : isDone inner.done start k = true
  · simp only [done, ↓reduceIte]
    exact ⟨trivial, .idle all rfl rfl⟩
  simp only [done, Bool.false_eq_true, ↓reduceIte]
  generalize entry inner.groups start = pair at room good ⊢
  obtain ⟨groups, group⟩ := pair
  dsimp only at room good ⊢
  unfold u32Max at word
  rw [subNat_eq (by omega) (by omega), pure_then, bitChecked_eq (by omega), pure_then]
  by_cases known : group.gotMask &&& bit (seq - start) ≠ 0#64
  · rw [if_pos known, if_pos known]
    exact ⟨rfl, .idle (room.insert start group good) rfl rfl⟩
  rw [if_neg known, if_neg known]
  by_cases full : group.gotMask ||| bit (seq - start) = fullMask
  · rw [if_pos full, if_pos full, markDoneChecked_eq inner.done first below, pure_then]
    exact ⟨rfl, .idle (room.erase start) rfl rfl⟩
  rw [if_neg full, if_neg full]
  have grown := good.absorb frame (show start + (seq - start) ≤ u32Max by unfold u32Max; omega)
  obtain ⟨same, recovery⟩ := tryRecover_recovery
    { inner with groups := groups.insert start (group.absorb (seq - start) frame) } most
    (room.insert start _ grown) ⟨counting.recovered, counting.lost⟩
  exact ⟨same, recovery.after rfl rfl⟩

theorem storeParity_recovery (lens : List Nat) (body : Bytes) (most : k ≤ 64) (number : 1 ≤ start)
    (word : start ≤ u32Max) (apart : start + k ≠ u32Max + 2)
    (all : AllGroups (Roomy k) inner.groups) (counting : Counting inner) :
    storeParityChecked inner k start lens body = pure (storeParity inner k start lens body) ∧
      Recovery k start inner ((storeParity inner k start lens body).1,
        (storeParity inner k start lens body).2.getD []) := by
  obtain ⟨room, good⟩ := all.entry start (empty_roomy number word)
  unfold storeParityChecked storeParity
  generalize entry inner.groups start = pair at room good ⊢
  obtain ⟨groups, group⟩ := pair
  dsimp only at room good ⊢
  by_cases taken : group.parity.isSome = true
  · rw [if_pos taken, if_pos taken]
    exact ⟨rfl, .idle (room.insert start group good) rfl rfl⟩
  rw [if_neg taken, if_neg taken]
  have filled : Roomy k start { group with k := k, lens := lens, parity := some body } :=
    ⟨number, word, .inr rfl, good.got, fun _ => apart⟩
  obtain ⟨same, recovery⟩ := tryRecover_recovery
    { inner with
      groups := groups.insert start { group with k := k, lens := lens, parity := some body } } most
    (room.insert start _ filled) ⟨counting.recovered, counting.lost⟩
  rw [same, pure_then]
  exact ⟨rfl, recovery.after rfl rfl⟩

end Recovery

section Records

variable {k : Nat} {decoder : FecDecoder} {payload : Bytes}
variable {tag : Nat}

theorem readBe32_word (bytes : Bytes) : readBe32 bytes ≤ u32Max := by
  have first := (bytes.getD 0 0).toNat_lt
  have second := (bytes.getD 1 0).toNat_lt
  have third := (bytes.getD 2 0).toNat_lt
  have fourth := (bytes.getD 3 0).toNat_lt
  unfold readBe32 u32Max
  omega

theorem parityHeaderChecked_eq (k : Nat) (payload : Bytes) :
    parityHeaderChecked k payload = pure (parityHeader k payload) := by
  have word := readBe32_word (payload.drop 1)
  unfold u32Max at word
  unfold parityHeaderChecked parityHeader
  by_cases short : payload.length < 7 ∨ byteAt payload 0 ≠ controlKindFecParity
  · rw [if_pos short, if_pos short]
  rw [if_neg short, if_neg short]
  dsimp only
  by_cases wrong : readBe32 (payload.drop 1) = 0 ∨ (byteAt payload 5).toNat ≠ k
  · rw [if_pos wrong, if_pos (wrong.elim .inl fun size => .inr (.inl size))]
  rw [if_neg wrong, subNat_eq (by omega) (by omega), pure_then]
  obtain ⟨nonzero, size⟩ := not_or.mp wrong
  by_cases aligned : (readBe32 (payload.drop 1) - 1) % k ≠ 0
  · rw [if_pos aligned, if_pos (.inr (.inr aligned))]
  · rw [if_neg aligned, if_neg (by rintro (zero | other | off) <;> contradiction)]

theorem readLensChecked_eq (payload : Bytes) {descLen : Nat} (count index : Nat) (short : tag ≤ 16)
    (inside : descLen ≤ payload.length) (small : payload.length < 2 ^ 64) (few : index + count ≤ 64) :
    readLensChecked payload tag descLen count index =
      pure (readLens payload tag (payload.length - descLen) count index) := by
  induction count generalizing index with
  | zero => rfl
  | succ count ih =>
    have word := readBe32_word (payload.drop (6 + 4 * index))
    unfold u32Max at word
    rw [readLensChecked, readLens, mulNat_eq (by omega), pure_then, addNat_eq (by omega),
      pure_then, addNat_eq (by omega), pure_then]
    dsimp only
    rw [addNat_eq (by omega), pure_then, subNat_eq inside small, pure_then]
    by_cases long : readBe32 (payload.drop (6 + 4 * index)) + tag > payload.length - descLen
    · rw [if_pos long, if_pos long]
    rw [if_neg long, if_neg long, ih (index + 1) (by omega), pure_then]
    cases readLens payload tag (payload.length - descLen) count (index + 1) <;> rfl

theorem readLens_words (payload : Bytes) {room : Nat} (count index : Nat) {lens : List Nat}
    (read : readLens payload tag room count index = .ok lens) :
    ∀ length ∈ lens, length ≤ u32Max := by
  induction count generalizing index lens with
  | zero =>
    cases read
    nofun
  | succ count ih =>
    unfold readLens at read
    dsimp only at read
    split at read
    · cases read
    · cases rest : readLens payload tag room count (index + 1) with
      | error message =>
        rw [rest] at read
        cases read
      | ok others =>
        rw [rest] at read
        cases read
        intro length present
        rcases List.mem_cons.mp present with rfl | later
        · exact readBe32_word _
        · exact ih (index + 1) rest length later

theorem foldl_max_le (lens : List Nat) {first bound : Nat} (start : first ≤ bound)
    (all : ∀ length ∈ lens, length ≤ bound) : lens.foldl max first ≤ bound := by
  induction lens generalizing first with
  | nil => exact start
  | cons length rest ih =>
    exact ih (Nat.max_le.mpr ⟨start, all length List.mem_cons_self⟩)
      fun other present => all other (List.mem_cons_of_mem length present)

theorem readParityChecked_eq (ic : Option InnerCipher) (payload : Bytes) (start : Nat)
    (most : k ≤ 64) (small : payload.length < 2 ^ 64) :
    readParityChecked ic k payload start = pure (readParity ic k payload start) := by
  have tag : tagLen ic ≤ 16 := by
    unfold tagLen gcmTagSize
    split <;> omega
  unfold readParityChecked readParity
  rw [mulNat_eq (by omega), pure_then, addNat_eq (by omega), pure_then]
  dsimp only
  rw [addNat_eq (by omega), pure_then]
  by_cases short : payload.length < 6 + 4 * k + tagLen ic
  · rw [if_pos short, if_pos short]
  rw [if_neg short, if_neg short, readLensChecked_eq payload k 0 tag (by omega) small (by omega),
    pure_then]
  cases read : readLens payload (tagLen ic) (payload.length - (6 + 4 * k)) k 0 with
  | error message => rfl
  | ok lens =>
    have longest := foldl_max_le lens (Nat.zero_le u32Max) (readLens_words payload k 0 read)
    unfold u32Max at longest
    dsimp only
    rw [addNat_eq (by omega), pure_then, addNat_eq (by omega), pure_then]
    cases openBody ic (payload.drop (6 + 4 * k)) start (lens.foldl max 0) <;> rfl

end Records

section Calls

variable {k : Nat} {decoder : FecDecoder}

structure Fit (k : Nat) (decoder : FecDecoder) : Prop where
  size : decoder.k = k
  groups : AllGroups (Roomy k) decoder.inner.groups

structure Counted (k start : Nat) (before after : FecDecoder) (out : Delivered) : Prop where
  fit : Fit k after
  recovered : after.inner.recovered ≤ before.inner.recovered + 1
  lost : after.inner.lost = before.inner.lost
  numbers : ∀ entry ∈ out, ∃ missing < k, entry.1 = start + missing ∧ start + missing ≤ u32Max

theorem Fit.counted (fit : Fit k decoder) (start : Nat) : Counted k start decoder decoder [] :=
  ⟨fit, Nat.le_succ _, rfl, by nofun⟩

theorem Counted.retire {start : Nat} {before after : FecDecoder} {out : Delivered}
    (counted : Counted k start before after out) (progress : Option Nat) :
    Counted k start before (after.maybeRetireOldGroupsLocked progress) out := by
  obtain ⟨-, recovered, lost⟩ := maybeRetire_marks after progress
  exact ⟨⟨(maybeRetire_fixed after progress).1.trans counted.fit.size,
    counted.fit.groups.maybeRetire progress⟩, recovered ▸ counted.recovered,
    lost.trans counted.lost, counted.numbers⟩

section

variable (fit : Fit k decoder)

include fit

theorem onData_counted (least : 2 ≤ k) (most : k ≤ 64) {seq : Nat} (frame : Bytes)
    (progress : Option Nat) (word : seq ≤ u32Max) (counting : Counting decoder.inner) :
    onDataChecked decoder seq frame progress = pure (decoder.onData seq frame progress) ∧
      Counted k (groupStartOf k seq) decoder (decoder.onData seq frame progress).1
        (decoder.onData seq frame progress).2 := by
  have still := fit.counted (groupStartOf k seq)
  obtain ⟨rfl, groups⟩ := fit
  unfold onDataChecked FecDecoder.onData
  by_cases why : frame = [] ∨ seq = 0 ∨ decoder.staticSingle = true
  · rw [if_pos why, if_pos why]
    exact ⟨rfl, still⟩
  rw [if_neg why, if_neg why]
  by_cases fenced : decoder.fence.bypassData seq = true
  · rw [if_pos fenced, if_pos fenced]
    by_cases due : seq % 256 = 0
    · rw [if_pos due, if_pos due]
      exact ⟨rfl, still.retire progress⟩
    · rw [if_neg due, if_neg due]
      exact ⟨rfl, still⟩
  rw [if_neg fenced, if_neg fenced]
  by_cases old : decoder.retiredBefore ≠ 0 ∧ seq < decoder.retiredBefore
  · rw [if_pos old, if_pos old]
    exact ⟨rfl, still⟩
  rw [if_neg old, if_neg old]
  have number : 1 ≤ seq := Nat.one_le_iff_ne_zero.mpr fun zero => why (.inr (.inl zero))
  obtain ⟨same, recovery⟩ := onDataLocked_recovery decoder.inner decoder.fullMask frame least most
    number word groups counting
  rw [same, pure_then]
  exact ⟨rfl, ⟨rfl, recovery.groups⟩, recovery.recovered, recovery.lost, recovery.numbers⟩

theorem onParityStrict_counted (most : k ≤ 64) (payload : Bytes) (before after : Option Nat)
    (small : payload.length < 2 ^ 64)
    (apart : ∀ start parity, parityHeader k payload = .ok start →
      readParity decoder.ic k payload start = .ok parity → start + k ≠ u32Max + 2)
    (counting : Counting decoder.inner) :
    onParityStrictChecked decoder payload before after =
        pure (decoder.onParityStrict payload before after) ∧
      Counted k (readBe32 (payload.drop 1)) decoder
        (decoder.onParityStrict payload before after).1
        (framesOf (decoder.onParityStrict payload before after).2) := by
  have still := fit.counted (readBe32 (payload.drop 1))
  have cleanedStill := still.retire before
  obtain ⟨cleaned, sweep⟩ : ∃ cleaned,
      decoder.maybeRetireOldGroupsLocked before = cleaned := ⟨_, rfl⟩
  rw [sweep] at cleanedStill
  obtain ⟨-, recovered, lost⟩ := maybeRetire_marks decoder before
  obtain ⟨size, cipher⟩ := maybeRetire_fixed decoder before
  rw [sweep] at recovered lost size cipher
  rw [← cipher] at apart
  obtain rfl := cleanedStill.fit.size
  simp only [onParityStrictChecked, FecDecoder.onParityStrict, sweep]
  by_cases single : decoder.staticSingle = true
  · rw [if_pos single, if_pos single]
    exact ⟨rfl, still⟩
  rw [if_neg single, if_neg single, parityHeaderChecked_eq, pure_then]
  cases header : parityHeader decoder.k payload with
  | error message => exact ⟨rfl, still⟩
  | ok start =>
    dsimp only
    have isStart := parityHeader_start payload start header
    obtain ⟨number, _⟩ := parityHeader_boundary payload start header
    have word : start ≤ u32Max := isStart ▸ readBe32_word _
    rw [← isStart] at cleanedStill ⊢
    by_cases old : cleaned.retiredBefore ≠ 0 ∧ start < cleaned.retiredBefore
    · rw [if_pos old, if_pos old]
      exact ⟨rfl, cleanedStill⟩
    rw [if_neg old, if_neg old, readParityChecked_eq cleaned.ic payload start most small,
      pure_then]
    cases read : readParity cleaned.ic cleaned.k payload start with
    | error message => exact ⟨rfl, cleanedStill⟩
    | ok parity =>
      obtain ⟨lens, body⟩ := parity
      have clear := apart start (lens, body) (size ▸ header) read
      dsimp only
      rw [isDoneChecked_eq cleaned.inner.done number word, pure_then]
      by_cases done : isDone cleaned.inner.done start cleaned.k = true
      · rw [if_pos done, if_pos done]
        exact ⟨rfl, cleanedStill⟩
      rw [if_neg done, if_neg done]
      obtain ⟨same, recovery⟩ := storeParity_recovery cleaned.inner lens body most number word
        clear cleanedStill.fit.groups ⟨recovered ▸ counting.recovered, lost ▸ counting.lost⟩
      rw [same, pure_then]
      generalize storeParity cleaned.inner cleaned.k start lens body = result at recovery ⊢
      obtain ⟨inner, out⟩ := result
      have changed : Counted cleaned.k start decoder { cleaned with inner := inner }
          (out.getD []) :=
        ⟨⟨rfl, recovery.groups⟩, recovered ▸ recovery.recovered, recovery.lost.trans lost,
          recovery.numbers⟩
      cases out with
      | none => exact ⟨rfl, changed⟩
      | some frames => exact ⟨rfl, changed.retire after⟩

theorem handleModeControl_counted (start : Nat) (control : FecModeControl) (progress : Option Nat) :
    Counted k start decoder (decoder.handleModeControl control progress) [] := by
  have called := handleModeControl_called decoder control progress
  generalize decoder.handleModeControl control progress = next at called ⊢
  have groups := called.groups fit.groups
  have size : next.k = k := (congrArg Prod.fst called.setup).trans fit.size
  have counts : next.inner.recovered = decoder.inner.recovered ∧
      next.inner.lost = decoder.inner.lost := by
    cases called with
    | stale refused => exact ⟨rfl, rfl⟩
    | lifted fence applied shut => exact ⟨rfl, rfl⟩
    | raised fence applied opened => exact (maybeRetire_marks (decoder.fenced fence) progress).2
  exact ⟨⟨size, groups⟩, by rw [counts.1]; exact Nat.le_succ _, counts.2, by nofun⟩

theorem onControl_counted (most : k ≤ 64) (payload : Bytes) (before after : Option Nat)
    (small : payload.length < 2 ^ 64)
    (apart : ∀ start parity, parityHeader k payload = .ok start →
      readParity decoder.ic k payload start = .ok parity → start + k ≠ u32Max + 2)
    (counting : Counting decoder.inner) :
    onControlChecked decoder payload before after = pure (decoder.onControl payload before after) ∧
      Counted k (readBe32 (payload.drop 1)) decoder (decoder.onControl payload before after).1
        (framesOf (decoder.onControl payload before after).2) := by
  have still := fit.counted (readBe32 (payload.drop 1))
  unfold onControlChecked FecDecoder.onControl
  cases controlKind payload with
  | error message => exact ⟨rfl, still⟩
  | ok kind =>
    dsimp only
    by_cases parity : kind = controlKindFecParity
    · rw [if_pos parity, if_pos parity]
      exact onParityStrict_counted fit most payload before after small apart counting
    rw [if_neg parity, if_neg parity]
    cases FecModeControl.parse payload with
    | error message => exact ⟨rfl, still⟩
    | ok control => exact ⟨rfl, handleModeControl_counted fit _ control after⟩

end

end Calls

section Runs

variable {k : Nat} {ic : Option InnerCipher}

structure Arrival where
  record : Record
  before : Option Nat
  after : Option Nat

def Arrival.call (arrival : Arrival) (decoder : FecDecoder) : FecDecoder × Delivered :=
  match arrival.record with
  | .data seq frame => decoder.onData seq frame arrival.before
  | .control payload =>
    let result := decoder.onControl payload arrival.before arrival.after
    (result.1, framesOf result.2)

def Arrival.callChecked (arrival : Arrival) (decoder : FecDecoder) :
    Checked (FecDecoder × Delivered) :=
  match arrival.record with
  | .data seq frame => onDataChecked decoder seq frame arrival.before
  | .control payload => do
      let result ← onControlChecked decoder payload arrival.before arrival.after
      pure (result.1, framesOf result.2)

def Arrival.groupStart (arrival : Arrival) (k : Nat) : Nat :=
  match arrival.record with
  | .data seq _ => groupStartOf k seq
  | .control payload => readBe32 (payload.drop 1)

def arrive : FecDecoder → List Arrival → FecDecoder × List (Arrival × Delivered)
  | decoder, [] => (decoder, [])
  | decoder, arrival :: rest =>
    let first := arrival.call decoder
    let others := arrive first.1 rest
    (others.1, (arrival, first.2) :: others.2)

def arriveChecked : FecDecoder → List Arrival → Checked (FecDecoder × List (Arrival × Delivered))
  | decoder, [] => pure (decoder, [])
  | decoder, arrival :: rest => do
      let first ← arrival.callChecked decoder
      let others ← arriveChecked first.1 rest
      pure (others.1, (arrival, first.2) :: others.2)

def FecDecoder.newChecked (k : Nat) (ic : Option InnerCipher) : Checked FecDecoder := do
  let fullMask ← fullMaskOfChecked (clampFecGroup k)
  pure { FecDecoder.new k ic with fullMask := fullMask }

/-- A data frame has a `u32` number. A parity that is well formed is not for a group of
which just the last member lies past the last number. -/
def Arrival.Clear (arrival : Arrival) (ic : Option InnerCipher) (k : Nat) : Prop :=
  match arrival.record with
  | .data seq _ => seq ≤ u32Max
  | .control payload => payload.length < 2 ^ 64 ∧
      ∀ start parity, parityHeader k payload = .ok start →
        readParity ic k payload start = .ok parity → start + k ≠ u32Max + 2

variable {decoder : FecDecoder}

section

variable (fit : Fit k decoder) (cipher : decoder.ic = ic) (least : 2 ≤ k) (most : k ≤ 64)

include fit cipher least most

theorem call_counted (arrival : Arrival) (clear : arrival.Clear ic k)
    (counting : Counting decoder.inner) :
    arrival.callChecked decoder = pure (arrival.call decoder) ∧
      Counted k (arrival.groupStart k) decoder (arrival.call decoder).1 (arrival.call decoder).2 ∧
      (arrival.call decoder).1.ic = ic := by
  obtain ⟨record, before, after⟩ := arrival
  subst cipher
  cases record with
  | data seq frame =>
    obtain ⟨same, counted⟩ := onData_counted fit least most frame before clear counting
    have setup := (onData_called decoder seq frame before).setup
    exact ⟨same, counted, congrArg (fun setup => setup.2.2.2) setup⟩
  | control payload =>
    obtain ⟨same, counted⟩ := onControl_counted fit most payload before after clear.1 clear.2
      counting
    have setup := (onControl_called decoder payload before after).setup
    refine ⟨?_, counted, congrArg (fun setup => setup.2.2.2) setup⟩
    simp only [Arrival.callChecked, Arrival.call, same, pure_then]

theorem arrive_counted (arrivals : List Arrival) (clear : ∀ arrival ∈ arrivals, arrival.Clear ic k)
    (recovered : decoder.inner.recovered + arrivals.length < 2 ^ 64)
    (lost : decoder.inner.lost < 2 ^ 64) :
    arriveChecked decoder arrivals = pure (arrive decoder arrivals) ∧
      ∀ logged ∈ (arrive decoder arrivals).2, ∀ entry ∈ logged.2,
        ∃ missing < k, entry.1 = logged.1.groupStart k + missing ∧ entry.1 ≤ u32Max := by
  induction arrivals generalizing decoder with
  | nil => exact ⟨rfl, by nofun⟩
  | cons arrival rest ih =>
    rw [List.length_cons] at recovered
    obtain ⟨same, counted, kept⟩ := call_counted fit cipher least most arrival
      (clear arrival List.mem_cons_self) ⟨by omega, lost⟩
    have grown := counted.recovered
    obtain ⟨others, numbers⟩ := ih counted.fit kept
      (fun other present => clear other (List.mem_cons_of_mem arrival present)) (by omega)
      (counted.lost ▸ lost)
    refine ⟨by rw [arriveChecked, same, pure_then, others, pure_then, arrive], ?_⟩
    intro logged present entry recoveredHere
    rcases List.mem_cons.mp present with rfl | later
    · obtain ⟨missing, inside, number, word⟩ := counted.numbers entry recoveredHere
      exact ⟨missing, inside, number, number ▸ word⟩
    · exact numbers logged later entry recoveredHere

end

theorem newChecked_eq (k : Nat) (ic : Option InnerCipher) :
    FecDecoder.newChecked k ic = pure (FecDecoder.new k ic) := by
  have least := clampFecGroup_least k
  have most := clampFecGroup_most k
  have mask : fullMaskOfChecked (clampFecGroup k) = pure (fullMaskOf (clampFecGroup k)) := by
    unfold fullMaskOfChecked fullMaskOf
    by_cases full : clampFecGroup k = 64
    · rw [if_pos full, if_pos full]
    · rw [if_neg full, if_neg full, bitChecked_eq (by omega), pure_then]
      refine sub_eq ?_
      have power : (bit (clampFecGroup k)).toNat = 2 ^ clampFecGroup k := by
        rw [bit, BitVec.toNat_shiftLeft, Nat.shiftLeft_eq, show (1#64).toNat = 1 from rfl,
          Nat.one_mul]
        exact Nat.mod_eq_of_lt (Nat.pow_lt_pow_right (by decide) (by omega))
      rw [power]
      exact Nat.one_le_two_pow
  rw [FecDecoder.newChecked, mask, pure_then]
  rfl

end Runs

section Boundary

variable {k seq : Nat}

def CompleteStart (k start : Nat) : Prop := GroupStart k start ∧ start + k - 1 ≤ u32Max

/-- Zero when no complete group starts at `seq` or after it, and else the first such
start. -/
def NextComplete (k seq next : Nat) : Prop :=
  (next ≠ 0 → IsLeast { start | CompleteStart k start ∧ seq ≤ start } next) ∧
    (next = 0 → ∀ start, CompleteStart k start → ¬ seq ≤ start)

theorem fecNextGroupStart_word (word : seq ≤ u32Max) : fecNextGroupStart seq k ≤ u32Max := by
  unfold fecNextGroupStart
  split
  · exact Nat.zero_le _
  · dsimp only
    split
    · exact word
    · split
      · assumption
      · exact Nat.zero_le _

theorem fecNextGroupStart_near (least : 2 ≤ k) (most : k ≤ 64) (number : 1 ≤ seq)
    (there : fecNextGroupStart seq k ≠ 0) : fecNextGroupStart seq k < seq + k := by
  obtain ⟨_, _, first⟩ := (fecNextGroupStart_spec seq least most number).1 there
  obtain ⟨aligned, below, above⟩ := fecGroupStart_spec (seq + k - 1) least most (by omega)
  have := first _ aligned (by omega)
  omega

/-- The boundary helper looks for an aligned start and not for a complete group: it is
right unless the first group start from `seq` on is that of the incomplete last group. -/
theorem fecNextGroupStart_complete (least : 2 ≤ k) (most : k ≤ 64) (word : seq ≤ u32Max) :
    NextComplete k seq (fecNextGroupStart seq k) ↔
      1 ≤ seq ∧ ∀ start, GroupStart k start → seq ≤ start → start < seq + k → start ≤ u32Max →
        start + k - 1 ≤ u32Max := by
  rcases Nat.eq_zero_or_pos seq with rfl | number
  · -- the first group is complete and starts after 0
    refine ⟨fun ⟨_, absent⟩ => ?_, fun ⟨positive, _⟩ => absurd positive (by decide)⟩
    refine absurd (Nat.zero_le 1) (absent rfl 1 ⟨⟨Nat.le_refl 1, Nat.zero_mod k⟩, ?_⟩)
    unfold u32Max
    omega
  obtain ⟨found, absent⟩ := fecNextGroupStart_spec seq least most number
  have near := fecNextGroupStart_near least most number
  have bound := @fecNextGroupStart_word k seq word
  generalize fecNextGroupStart seq k = next at found absent near bound ⊢
  constructor
  · rintro ⟨smallest, _⟩
    refine ⟨number, fun start aligned above close below => ?_⟩
    have there : next ≠ 0 := fun zero => by
      have := absent zero start aligned above
      omega
    obtain ⟨own, ahead, first⟩ := found there
    have same : start = next :=
      Nat.le_antisymm (aligned.le_of_lt own (by omega)) (first start aligned above)
    exact same ▸ (smallest there).1.1.2
  · rintro ⟨_, complete⟩
    constructor
    · intro there
      obtain ⟨own, ahead, first⟩ := found there
      exact ⟨⟨⟨own, complete next own ahead (near there) bound⟩, ahead⟩,
        fun start member => first start member.1.1 member.2⟩
    · intro zero start member above
      have := absent zero start member.1 above
      have := member.2
      omega

/-- FEC at the end of the sequence space: exactly when the boundary helper is right, and
in every sequence of records without a well-formed parity for a group that lacks just its
last number, the decoder's arithmetic does not overflow and a recovered frame has the
number of its place in the group. -/
theorem fec_arithmetic_at_end (k : Nat) (least : 2 ≤ k) (most : k ≤ 64) :
    (∀ seq ≤ u32Max, (NextComplete k seq (fecNextGroupStart seq k) ↔
      1 ≤ seq ∧ ∀ start, GroupStart k start → seq ≤ start → start < seq + k → start ≤ u32Max →
        start + k - 1 ≤ u32Max)) ∧
    ∀ (ic : Option InnerCipher) (arrivals : List Arrival), arrivals.length < 2 ^ 64 →
      (∀ arrival ∈ arrivals, arrival.Clear ic k) →
      (do let decoder ← FecDecoder.newChecked k ic; arriveChecked decoder arrivals) =
          pure (arrive (FecDecoder.new k ic) arrivals) ∧
        ∀ logged ∈ (arrive (FecDecoder.new k ic) arrivals).2, ∀ entry ∈ logged.2,
          ∃ missing < k, entry.1 = logged.1.groupStart k + missing ∧ entry.1 ≤ u32Max := by
  refine ⟨fun seq word => fecNextGroupStart_complete least most word, ?_⟩
  intro ic arrivals few clear
  have fit : Fit k (FecDecoder.new k ic) :=
    ⟨clampFecGroup_of_bounds least most, allGroups_empty⟩
  obtain ⟨same, numbers⟩ := arrive_counted fit rfl least most arrivals clear
    (by simpa [FecDecoder.new] using few) (Nat.two_pow_pos 64)
  rw [newChecked_eq, pure_then]
  exact ⟨same, numbers⟩

def lastGroup : List Arrival :=
  [⟨.data 4294967293 [1], none, none⟩,
    ⟨.control (parityRecord none 4294967293 [1, 1, 1] [7]), none, none⟩,
    ⟨.data 4294967295 [2], none, none⟩]

theorem fec_arithmetic_at_end_three :
    NextComplete 3 4294967292 (fecNextGroupStart 4294967292 3) ∧
      (do let decoder ← FecDecoder.newChecked 3 none; arriveChecked decoder lastGroup) =
        pure (arrive (FecDecoder.new 3 none) lastGroup) ∧
      (arrive (FecDecoder.new 3 none) lastGroup).2.map Prod.snd = [[], [], [(4294967294, [4])]] := by
  obtain ⟨next, runs⟩ := fec_arithmetic_at_end 3 (by decide) (by decide)
  refine ⟨(next 4294967292 (by decide)).mpr ⟨by decide, ?_⟩, (runs none lastGroup (by decide) ?_).1,
    by decide +kernel⟩
  · intro start aligned above close below
    unfold u32Max at below ⊢
    have := aligned.2
    omega
  · intro arrival member
    simp only [lastGroup, List.mem_cons, List.not_mem_nil, or_false] at member
    rcases member with rfl | rfl | rfl
    · exact (by decide : 4294967293 ≤ u32Max)
    · refine ⟨by decide +kernel, fun start parity header _ => ?_⟩
      have value : readBe32 ((parityRecord none 4294967293 [1, 1, 1] [7]).drop 1) = 4294967293 := by
        decide +kernel
      rw [parityHeader_start _ start header, value]
      decide
    · exact (by decide : 4294967295 ≤ u32Max)

def halfGroup : List Arrival :=
  [⟨.control (parityRecord none 4294967295 [1, 1] [7]), none, none⟩,
    ⟨.data 4294967295 [5], none, none⟩]

/-- The boundary helper names the start of an incomplete group, and 0 for 0; the decoder
takes a number that does not exist for missing, and recovers it as number 0. -/
theorem incomplete_last_group :
    (¬ NextComplete 64 4294967233 (fecNextGroupStart 4294967233 64) ∧
        ¬ NextComplete 2 0 (fecNextGroupStart 0 2)) ∧
      (do let decoder ← FecDecoder.newChecked 2 none;
          arriveChecked decoder halfGroup).overflow = true ∧
      (arrive (FecDecoder.new 2 none) halfGroup).2.map Prod.snd = [[], [(0, [2])]] := by
  refine ⟨⟨?_, ?_⟩, by decide +kernel, by decide +kernel⟩
  · rw [fecNextGroupStart_complete (by decide) (by decide) (by decide)]
    rintro ⟨_, complete⟩
    exact absurd (complete 4294967233 (by decide) (by decide) (by decide) (by decide)) (by decide)
  · rw [fecNextGroupStart_complete (by decide) (by decide) (by decide)]
    rintro ⟨positive, _⟩
    exact absurd positive (by decide)

end Boundary

end TlsVpn.Fec
