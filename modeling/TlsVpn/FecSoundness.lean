import TlsVpn.FecCalls
import TlsVpn.FecEncoding

/-!
Soundness of recovery. Every pending group is kept `Faithful`: its accumulator
is the zero-extended exclusive or of exactly the members flagged in its mask,
and its parity, if any, is the one of the whole group. Eviction, retirement,
fencing and resets only remove groups, so they cannot break it.
-/

namespace TlsVpn.Fec

open Words XorBytes Protocol

variable {k : Nat} {ic : Option InnerCipher} {payloads : Payloads}

structure WholeParity (k : Nat) (payloads : Payloads) (start : Nat) (lens : List Nat)
    (body : Bytes) : Prop where
  lens : lens = (List.range' start k).map fun seq => (payloads.bytes seq).length
  body : IsBody ((List.range' start k).map payloads.bytes) body
  last : start + k ≤ u32Max + 1

structure Faithful (k : Nat) (payloads : Payloads) (start : Nat) (group : FecGroupState) :
    Prop where
  positive : 1 ≤ start
  aligned : (start - 1) % k = 0
  acc : ∀ position, byteAt group.acc position =
    xorMembers (fun member => group.gotMask.getLsbD member)
      (fun member => byteAt (payloads.bytes (start + member)) position) k
  parity : ∀ body, group.parity = some body →
    group.k = k ∧ WholeParity k payloads start group.lens body

abbrev AllFaithful (k : Nat) (payloads : Payloads) (groups : Groups) : Prop :=
  AllGroups (Faithful k payloads) groups

def Correct (payloads : Payloads) (out : Delivered) : Prop :=
  ∀ entry ∈ out, entry.2 = payloads.bytes entry.1

theorem empty_faithful (start : Nat) (positive : 1 ≤ start) (aligned : (start - 1) % k = 0) :
    Faithful k payloads start FecGroupState.empty := by
  refine ⟨positive, aligned, ?_, ?_⟩
  · intro position
    rw [xorMembers_none]
    · rfl
    · intro member _
      simp [FecGroupState.empty]
  · intro body present
    cases present

section Steps

variable (inner : FecDecoderInner) (start member seq : Nat) (group : FecGroupState)

theorem mem_missingMembers (mask : BitVec 64) (member : Nat) (small : k ≤ 64) :
    member ∈ missingMembers mask k ↔ member < k ∧ mask.getLsbD member = false := by
  simp only [missingMembers, List.mem_filter, List.mem_range, decide_eq_true_eq]
  constructor
  · rintro ⟨inside, clear⟩
    exact ⟨inside, (and_bit_eq_zero mask member (by omega)).mp clear⟩
  · rintro ⟨inside, clear⟩
    exact ⟨inside, (and_bit_eq_zero mask member (by omega)).mpr clear⟩

theorem missingMembers_filled (gotMask : BitVec 64) (most : k ≤ 64) {missing : Nat}
    (only : missingMembers gotMask k = [missing]) :
    missingMembers (gotMask ||| bit missing) k = [] := by
  rw [List.eq_nil_iff_forall_not_mem]
  intro member listed
  obtain ⟨inside, clear⟩ := (mem_missingMembers _ member most).mp listed
  rw [or_bit_getLsbD _ _ _ (by omega), Bool.or_eq_false_iff, decide_eq_false_iff_not] at clear
  have old := (mem_missingMembers gotMask member most).mpr ⟨inside, clear.1⟩
  rw [only] at old
  exact clear.2 (List.mem_singleton.mp old)

theorem recoverFrame_eq (missing : Nat) (group : FecGroupState) (body : Bytes)
    (faithful : Faithful k payloads start group) (stored : group.parity = some body)
    (inside : missing < k) (clear : group.gotMask.getLsbD missing = false)
    (others : ∀ member, member < k → member ≠ missing → group.gotMask.getLsbD member = true) :
    recoverFrame group body missing = payloads.bytes (start + missing) := by
  obtain ⟨_, lens, isBody, _⟩ := faithful.parity body stored
  have length : group.lens.getD missing 0 = (payloads.bytes (start + missing)).length := by
    rw [lens]
    simp [inside]
  have longer : (payloads.bytes (start + missing)).length ≤ body.length := by
    rw [isBody.length]
    exact le_maxLen _ _ (List.mem_map.mpr
      ⟨start + missing, List.mem_range'_1.mpr (by omega), rfl⟩)
  have roomy := extend_length group.acc (payloads.bytes (start + missing)).length
  simp only [recoverFrame, length]
  apply ext_byteAt
  · simp [xorCombine_length]
  · intro position bound
    rw [xorCombine_length, List.length_replicate] at bound
    rw [byteAt_xorCombine _ _ _ _ (by simpa using bound) (by simpa using longer)
      (by rw [List.length_replicate, roomy]; omega), byteAt_extend, faithful.acc, isBody.bytes,
      xorAll_range]
    exact xorMembers_missing _ _ k missing inside clear others

theorem tryRecover_sound (small : k ≤ 64) (faithful : AllFaithful k payloads inner.groups) :
    AllFaithful k payloads (tryRecover inner start k).1.groups ∧
      Correct payloads (tryRecover inner start k).2 := by
  have silent : Correct payloads [] := fun entry member => by cases member
  unfold tryRecover
  cases found : inner.groups.lookup start with
  | none => exact ⟨faithful, silent⟩
  | some group =>
    have good := faithful start group found
    by_cases unset : group.k = 0
    · simp only [if_pos unset]
      exact ⟨faithful, silent⟩
    · simp only [if_neg unset]
      cases stored : group.parity with
      | none => exact ⟨faithful, silent⟩
      | some body =>
        obtain ⟨size, whole⟩ := good.parity body stored
        rw [size]
        match missed : missingMembers group.gotMask k with
        | [] => exact ⟨faithful.erase start, silent⟩
        | [missing] =>
          refine ⟨faithful.erase start, ?_⟩
          intro entry member
          have only : ∀ other, other ∈ missingMembers group.gotMask k ↔ other = missing := by
            intro other
            rw [missed, List.mem_singleton]
          obtain ⟨inside, clear⟩ :=
            (mem_missingMembers group.gotMask missing small).mp ((only missing).mpr rfl)
          have others : ∀ other, other < k → other ≠ missing →
              group.gotMask.getLsbD other = true := by
            intro other bound apart
            by_contra dark
            exact apart ((only other).mp ((mem_missingMembers _ other small).mpr
              ⟨bound, by simpa using dark⟩))
          rw [List.mem_singleton.mp member]
          have number : wrappingAdd start missing = start + missing := by
            have last := whole.last
            unfold u32Max at last
            unfold wrappingAdd
            omega
          simp only [number]
          exact recoverFrame_eq start missing group body good stored inside clear others
        | _ :: _ :: _ => exact ⟨faithful, silent⟩

theorem groupStartOf_spec (positive : 1 ≤ seq) (atLeast : 2 ≤ k) :
    1 ≤ groupStartOf k seq ∧ (groupStartOf k seq - 1) % k = 0 ∧
      seq - groupStartOf k seq < k ∧ groupStartOf k seq + (seq - groupStartOf k seq) = seq := by
  have residue := Nat.mod_lt (seq - 1) (show 0 < k by omega)
  have bound := Nat.mod_le (seq - 1) k
  unfold groupStartOf
  refine ⟨by omega, ?_, by omega, by omega⟩
  have quotient := Nat.div_add_mod (seq - 1) k
  rw [show seq - (seq - 1) % k - 1 = k * ((seq - 1) / k) by omega, Nat.mul_mod_right]

theorem absorb_faithful (small : k ≤ 64) (inside : member < k)
    (faithful : Faithful k payloads start group) (fresh : group.gotMask &&& bit member = 0#64) :
    Faithful k payloads start (group.absorb member (payloads.bytes (start + member))) := by
  refine ⟨faithful.positive, faithful.aligned, ?_, faithful.parity⟩
  intro position
  simp only [FecGroupState.absorb]
  rw [byteAt_xorInto _ _ (by rw [extend_length]; omega), byteAt_extend, faithful.acc]
  symm
  apply xorMembers_insert _ _ _ k member inside
  · exact (and_bit_eq_zero group.gotMask member (by omega)).mp fresh
  · rw [or_bit_getLsbD _ _ _ (by omega)]
    simp
  · intro other bound apart
    rw [or_bit_getLsbD _ _ _ (by omega)]
    simp [apart]

theorem onDataLocked_sound (fullMask : BitVec 64) (seq : Nat) (atLeast : 2 ≤ k) (small : k ≤ 64)
    (positive : 1 ≤ seq) (faithful : AllFaithful k payloads inner.groups) :
    AllFaithful k payloads (onDataLocked inner k fullMask seq (payloads.bytes seq)).1.groups ∧
      Correct payloads (onDataLocked inner k fullMask seq (payloads.bytes seq)).2 := by
  have silent : Correct payloads [] := fun entry member => by cases member
  obtain ⟨first, aligned, inside, number⟩ := groupStartOf_spec seq positive atLeast
  obtain ⟨room, good⟩ := faithful.entry (groupStartOf k seq)
    (empty_faithful (groupStartOf k seq) first aligned)
  simp only [onDataLocked]
  split
  · exact ⟨faithful, silent⟩
  · split
    · exact ⟨room.insert _ _ good, silent⟩
    · rename_i fresh
      split
      · exact ⟨room.erase _, silent⟩
      · apply tryRecover_sound _ _ small
        have absorbed := absorb_faithful (groupStartOf k seq) (seq - groupStartOf k seq) _ small
          inside good (by simpa using fresh)
        rw [number] at absorbed
        exact room.insert _ _ absorbed

theorem storeParity_sound (lens : List Nat) (body : Bytes) (small : k ≤ 64) (positive : 1 ≤ start)
    (aligned : (start - 1) % k = 0) (whole : WholeParity k payloads start lens body)
    (faithful : AllFaithful k payloads inner.groups) :
    AllFaithful k payloads (storeParity inner k start lens body).1.groups ∧
      ∀ out, (storeParity inner k start lens body).2 = some out → Correct payloads out := by
  obtain ⟨room, good⟩ := faithful.entry start (empty_faithful start positive aligned)
  simp only [storeParity]
  split
  · refine ⟨room.insert _ _ good, ?_⟩
    intro out absurd
    cases absurd
  · have stored : Faithful k payloads start
        { (entry inner.groups start).2 with k := k, lens := lens, parity := some body } := by
      refine ⟨positive, aligned, good.acc, ?_⟩
      intro other present
      cases present
      exact ⟨rfl, whole⟩
    have recovered := @tryRecover_sound k payloads
      { inner with
        groups := (entry inner.groups start).1.insert start
          { (entry inner.groups start).2 with k := k, lens := lens, parity := some body } }
      start small (room.insert _ _ stored)
    refine ⟨recovered.1, ?_⟩
    intro out same
    cases same
    exact recovered.2

end Steps

section Decoder

structure SoundDecoder (k : Nat) (ic : Option InnerCipher) (payloads : Payloads)
    (decoder : FecDecoder) : Prop where
  size : decoder.k = k
  cipher : decoder.ic = ic
  groups : AllFaithful k payloads decoder.inner.groups

variable {before after : Option Nat} {result : FecDecoder × Except String Delivered}
  (decoder : FecDecoder) (progress : Option Nat)

theorem new_soundDecoder (atLeast : 2 ≤ k) (small : k ≤ 64) :
    SoundDecoder k ic payloads (FecDecoder.new k ic) := by
  exact ⟨clampFecGroup_of_bounds atLeast small, rfl, allGroups_empty⟩

theorem reset_soundDecoder (sound : SoundDecoder k ic payloads decoder) :
    SoundDecoder k ic payloads decoder.reset :=
  ⟨sound.size, sound.cipher, allGroups_empty⟩

theorem setStaticSinglePath_soundDecoder (single : Bool)
    (sound : SoundDecoder k ic payloads decoder) :
    SoundDecoder k ic payloads (decoder.setStaticSinglePath single) := by
  unfold FecDecoder.setStaticSinglePath
  split
  · exact ⟨sound.size, sound.cipher, sound.groups⟩
  · split
    · exact sound
    · exact reset_soundDecoder _ ⟨sound.size, sound.cipher, sound.groups⟩

theorem maybeRetire_soundDecoder (sound : SoundDecoder k ic payloads decoder) :
    SoundDecoder k ic payloads (decoder.maybeRetireOldGroupsLocked progress) := by
  obtain ⟨size, cipher⟩ := maybeRetire_fixed decoder progress
  exact ⟨size.trans sound.size, cipher.trans sound.cipher, sound.groups.maybeRetire progress⟩

theorem onData_sound (seq : Nat) (progress : Option Nat) (atLeast : 2 ≤ k) (small : k ≤ 64)
    (sound : SoundDecoder k ic payloads decoder) :
    SoundDecoder k ic payloads (decoder.onData seq (payloads.bytes seq) progress).1 ∧
      Correct payloads (decoder.onData seq (payloads.bytes seq) progress).2 := by
  have silent : Correct payloads [] := fun entry member => by cases member
  have called := onData_called decoder seq (payloads.bytes seq) progress
  generalize decoder.onData seq (payloads.bytes seq) progress = result at called ⊢
  cases called with
  | swept heard fenced due => exact ⟨maybeRetire_soundDecoder decoder progress sound, silent⟩
  | absorbed heard unfenced young =>
    rw [sound.size]
    obtain ⟨groups, correct⟩ := onDataLocked_sound decoder.inner decoder.fullMask seq atLeast
      small (Nat.pos_of_ne_zero heard.numbered) sound.groups
    exact ⟨⟨rfl, sound.cipher, groups⟩, correct⟩
  | _ => exact ⟨sound, silent⟩

theorem onDataBatch_sound (entries : List (Nat × Bytes × Option Nat)) (atLeast : 2 ≤ k)
    (small : k ≤ 64) (sound : SoundDecoder k ic payloads decoder)
    (assigned : ∀ entry ∈ entries, entry.2.1 = payloads.bytes entry.1) :
    SoundDecoder k ic payloads (decoder.onDataBatch entries).1 ∧
      Correct payloads (decoder.onDataBatch entries).2 := by
  rw [onDataBatch_eq]
  induction entries generalizing decoder with
  | nil => exact ⟨sound, fun entry member => by cases member⟩
  | cons head rest ih =>
    obtain ⟨seq, frame, progress⟩ := head
    have same : frame = payloads.bytes seq := assigned _ List.mem_cons_self
    subst frame
    obtain ⟨stepped, firstCorrect⟩ := onData_sound decoder seq progress atLeast small sound
    obtain ⟨final, restCorrect⟩ := ih _ stepped
      (fun entry member => assigned entry (List.mem_cons_of_mem _ member))
    refine ⟨final, ?_⟩
    intro entry member
    rcases List.mem_append.mp member with first | later
    · exact firstCorrect entry first
    · exact restCorrect entry later

def framesOf : Except String Delivered → Delivered
  | .ok out => out
  | .error _ => []

theorem ParityCall.delivers {decoder : FecDecoder} {payload : Bytes} (holds : Delivered → Prop)
    (called : ParityCall decoder payload before after result) (silent : holds [])
    (stores : ∀ cleaned start lens body out,
      decoder.maybeRetireOldGroupsLocked before = cleaned →
      parityHeader decoder.k payload = .ok start →
      readParity cleaned.ic cleaned.k payload start = .ok (lens, body) →
      (storeParity cleaned.inner cleaned.k start lens body).2 = some out → holds out) :
    holds (framesOf result.2) := by
  cases called with
  | stored listening start cleaned lens body out sweep header young read pending taken =>
    exact stores cleaned start lens body out sweep header read taken
  | _ => exact silent

theorem ParityCall.sound {decoder : FecDecoder} {record : Bytes}
    (called : ParityCall decoder record before after result) {start : Nat} (atLeast : 2 ≤ k)
    (small : k ≤ 64) (parity : AlignedParity k ic payloads start record)
    (sound : SoundDecoder k ic payloads decoder) :
    SoundDecoder k ic payloads result.1 ∧ Correct payloads (framesOf result.2) := by
  -- what the call reads from the record is what the encoder wrote into it
  have stores : ∀ cleaned other lens body, SoundDecoder k ic payloads cleaned →
      parityHeader decoder.k record = .ok other →
      readParity cleaned.ic cleaned.k record other = .ok (lens, body) →
      AllFaithful k payloads (storeParity cleaned.inner cleaned.k other lens body).1.groups ∧
        ∀ out, (storeParity cleaned.inner cleaned.k other lens body).2 = some out →
          Correct payloads out := by
    intro cleaned other lens body good header read
    obtain ⟨⟨positive, aligned, last⟩, wrote, whole, reads, isBody⟩ := parity.reads atLeast small
    rw [sound.size, wrote] at header
    cases header
    rw [good.size, good.cipher, reads] at read
    cases read
    rw [good.size]
    exact storeParity_sound cleaned.inner start _ body small positive aligned ⟨rfl, isBody, last⟩
      good.groups
  constructor
  · apply called.keeps (SoundDecoder k ic payloads) sound
    · exact fun other progress good => maybeRetire_soundDecoder other progress good
    · intro cleaned other lens body good header read
      exact ⟨good.size, good.cipher, (stores cleaned other lens body good header read).1⟩
  · apply called.delivers (Correct payloads)
    · exact fun entry member => by cases member
    · intro cleaned other lens body out sweep header read taken
      have good := maybeRetire_soundDecoder decoder before sound
      rw [sweep] at good
      exact (stores cleaned other lens body good header read).2 out taken

theorem ModeCall.sound {decoder next : FecDecoder} {control : FecModeControl}
    {progress : Option Nat} (called : ModeCall decoder control progress next)
    (sound : SoundDecoder k ic payloads decoder) : SoundDecoder k ic payloads next := by
  have setup := called.setup
  simp only [FecDecoder.setup, Prod.mk.injEq] at setup
  obtain ⟨size, _, _, cipher⟩ := setup
  exact ⟨size.trans sound.size, cipher.trans sound.cipher, called.groups sound.groups⟩

theorem onControl_sound (payload : Bytes) (before after : Option Nat) (atLeast : 2 ≤ k)
    (small : k ≤ 64)
    (legit : payload.head? = some controlKindFecParity →
      ∃ start, AlignedParity k ic payloads start payload)
    (sound : SoundDecoder k ic payloads decoder) :
    SoundDecoder k ic payloads (decoder.onControl payload before after).1 ∧
      Correct payloads (framesOf (decoder.onControl payload before after).2) := by
  have silent : Correct payloads [] := fun entry member => by cases member
  have called := onControl_called decoder payload before after
  generalize decoder.onControl payload before after = result at called ⊢
  cases called with
  | unknown message kind => exact ⟨sound, silent⟩
  | parity kind result called =>
    obtain ⟨start, parity⟩ := legit (controlKind_ok.mp kind).1
    exact called.sound atLeast small parity sound
  | misread message kind parsed => exact ⟨sound, silent⟩
  | mode control next kind parsed called => exact ⟨called.sound sound, silent⟩

end Decoder

section Actor

variable (inner : FecDecoderInner) (decoder : FecDecoder) (seq : Nat) (payload : Bytes)
  (start : Nat) (frame : Bytes) (expected : Nat) (out : Delivered)

theorem tryRecover_short (k : Nat) : (tryRecover inner start k).2.length ≤ 1 := by
  unfold tryRecover
  split
  · exact Nat.zero_le _
  · split
    · exact Nat.zero_le _
    · split
      · exact Nat.zero_le _
      · split
        · exact Nat.zero_le _
        · exact Nat.le_refl _
        · exact Nat.zero_le _

theorem getLast_toList_of_short (short : out.length ≤ 1) : out.getLast?.toList = out := by
  match out, short with
  | [], _ => rfl
  | [entry], _ => rfl

theorem onData_short (progress : Option Nat) :
    (decoder.onData seq frame progress).2.length ≤ 1 := by
  simp only [FecDecoder.onData, onDataLocked]
  split
  · exact Nat.zero_le _
  · split
    · split <;> exact Nat.zero_le _
    · split
      · exact Nat.zero_le _
      · split
        · exact Nat.zero_le _
        · split
          · exact Nat.zero_le _
          · split
            · exact Nat.zero_le _
            · exact tryRecover_short _ _ _

theorem storeParity_short (k start : Nat) (lens : List Nat) (body : Bytes) (out : Delivered)
    (stored : (storeParity inner k start lens body).2 = some out) : out.length ≤ 1 := by
  simp only [storeParity] at stored
  split at stored
  · cases stored
  · cases stored
    exact tryRecover_short _ _ _

theorem maybeRetireOldGroupsActor_eq :
    decoder.maybeRetireOldGroupsActor expected =
      decoder.maybeRetireOldGroupsLocked (some expected) := rfl

theorem onDataActor_eq :
    decoder.onDataActor seq frame expected =
      ((decoder.onData seq frame (some expected)).1,
        (decoder.onData seq frame (some expected)).2.getLast?) := by
  simp only [FecDecoder.onDataActor, FecDecoder.onData, maybeRetireOldGroupsActor_eq]
  split
  · rfl
  · split
    · split <;> rfl
    · split
      · rfl
      · simp only [onDataLocked, groupStartOf]
        by_cases closed : isDone decoder.inner.done (seq - (seq - 1) % decoder.k) decoder.k = true
        · simp only [closed, ↓reduceIte]
          rfl
        · obtain ⟨pair, same⟩ : ∃ pair,
              entry decoder.inner.groups (seq - (seq - 1) % decoder.k) = pair := ⟨_, rfl⟩
          simp only [closed, same, Bool.false_eq_true, ↓reduceIte, ne_eq, ite_not]
          by_cases clear : pair.2.gotMask &&& bit (seq - (seq - (seq - 1) % decoder.k)) = 0#64
          · simp only [clear, ↓reduceIte]
            by_cases full : pair.2.gotMask ||| bit (seq - (seq - (seq - 1) % decoder.k)) =
                decoder.fullMask
            · simp only [full, ↓reduceIte]
              rfl
            · simp only [full, ↓reduceIte]
          · simp only [clear, ↓reduceIte]
            rfl

def actorFrames : Except String (Option (Nat × Bytes)) → Delivered
  | .ok out => out.toList
  | .error _ => []

theorem framesOf_short {result : Except String Delivered} (short : (framesOf result).length ≤ 1) :
    actorFrames (result.map List.getLast?) = framesOf result := by
  cases result with
  | error message => rfl
  | ok out => exact getLast_toList_of_short out short

theorem onParityActor_eq :
    decoder.onParityActor payload expected =
      ((decoder.onParityStrict payload (some expected) (some expected)).1,
        (decoder.onParityStrict payload (some expected) (some expected)).2.map List.getLast?) := by
  obtain ⟨cleaned, isCleaned⟩ : ∃ cleaned,
      decoder.maybeRetireOldGroupsLocked (some expected) = cleaned := ⟨_, rfl⟩
  simp only [FecDecoder.onParityActor, FecDecoder.onParityStrict, maybeRetireOldGroupsActor_eq,
    isCleaned]
  by_cases static : decoder.staticSingle = true
  · simp only [static, ↓reduceIte]
    rfl
  · simp only [static, Bool.false_eq_true, ↓reduceIte]
    cases parityHeader decoder.k payload with
    | error message => rfl
    | ok start =>
      by_cases retired : cleaned.retiredBefore ≠ 0 ∧ start < cleaned.retiredBefore
      · simp only [if_pos retired]
        rfl
      · simp only [if_neg retired]
        cases readParity cleaned.ic cleaned.k payload start with
        | error message => rfl
        | ok parity =>
          by_cases closed : isDone cleaned.inner.done start cleaned.k = true
          · simp only [closed, ↓reduceIte]
            rfl
          · simp only [closed, Bool.false_eq_true, ↓reduceIte]
            generalize storeParity cleaned.inner cleaned.k start parity.1 parity.2 = stored
            rcases stored with ⟨inner, _ | out⟩ <;> rfl

theorem onControlActor_eq :
    decoder.onControlActor payload expected =
      ((decoder.onControl payload (some expected) (some expected)).1,
        (decoder.onControl payload (some expected) (some expected)).2.map List.getLast?) := by
  unfold FecDecoder.onControlActor FecDecoder.onControl
  cases controlKind payload with
  | error message => rfl
  | ok kind =>
    by_cases parity : kind = controlKindFecParity
    · simp only [if_pos parity]
      exact onParityActor_eq decoder payload expected
    · simp only [if_neg parity]
      cases FecModeControl.parse payload with
      | error message => rfl
      | ok control => rfl

theorem ParityCall.short {decoder : FecDecoder} {payload : Bytes} {before after : Option Nat}
    {result : FecDecoder × Except String Delivered}
    (called : ParityCall decoder payload before after result) : (framesOf result.2).length ≤ 1 := by
  cases called with
  | stored listening start cleaned lens body out sweep header young read pending taken =>
    exact storeParity_short cleaned.inner cleaned.k start lens body out taken
  | _ => exact Nat.zero_le _

theorem onControl_short (before after : Option Nat) :
    (framesOf (decoder.onControl payload before after).2).length ≤ 1 := by
  have called := onControl_called decoder payload before after
  generalize decoder.onControl payload before after = result at called ⊢
  cases called with
  | parity kind result called => exact called.short
  | _ => exact Nat.zero_le _

theorem onControlActor_frames :
    actorFrames (decoder.onControlActor payload expected).2 =
      framesOf (decoder.onControl payload (some expected) (some expected)).2 := by
  rw [onControlActor_eq]
  exact framesOf_short (onControl_short decoder payload (some expected) (some expected))

end Actor

section Runs

/-- Everything a session does to its decoder. Data frames carry the payload
assigned to their number. -/
inductive Input where
  | data (seq : Nat) (progress : Option Nat)
  | dataBatch (entries : List (Nat × Option Nat))
  | control (payload : Bytes) (before after : Option Nat)
  | dataActor (seq expected : Nat)
  | controlActor (payload : Bytes) (expected : Nat)
  | staticSingle (single : Bool)
  | reset

def respond (payloads : Payloads) (decoder : FecDecoder) : Input → FecDecoder × Delivered
  | .data seq progress => decoder.onData seq (payloads.bytes seq) progress
  | .dataBatch entries =>
    decoder.onDataBatch (entries.map fun entry => (entry.1, payloads.bytes entry.1, entry.2))
  | .control payload before after =>
    let result := decoder.onControl payload before after
    (result.1, framesOf result.2)
  | .dataActor seq expected =>
    let result := decoder.onDataActor seq (payloads.bytes seq) expected
    (result.1, result.2.toList)
  | .controlActor payload expected =>
    let result := decoder.onControlActor payload expected
    (result.1, actorFrames result.2)
  | .staticSingle single => (decoder.setStaticSinglePath single, [])
  | .reset => (decoder.reset, [])

def respondAll (payloads : Payloads) : FecDecoder → List Input → FecDecoder × Delivered
  | decoder, [] => (decoder, [])
  | decoder, input :: rest =>
    let first := respond payloads decoder input
    let others := respondAll payloads first.1 rest
    (others.1, first.2 ++ others.2)

variable (decoder : FecDecoder)

theorem respond_dataActor (seq expected : Nat) :
    respond payloads decoder (.dataActor seq expected) =
      respond payloads decoder (.data seq (some expected)) := by
  simp only [respond, onDataActor_eq]
  rw [getLast_toList_of_short _ (onData_short _ _ _ _)]

theorem respond_controlActor (payload : Bytes) (expected : Nat) :
    respond payloads decoder (.controlActor payload expected) =
      respond payloads decoder (.control payload (some expected) (some expected)) := by
  simp only [respond, onControlActor_frames]
  rw [onControlActor_eq]

/-- A control record is anything at all, except that a FEC_PARITY record is one
an encoder produced for an aligned group. -/
def HonestControl (k : Nat) (ic : Option InnerCipher) (payloads : Payloads) (payload : Bytes) :
    Prop :=
  payload.head? = some controlKindFecParity → ∃ start, AlignedParity k ic payloads start payload

def Input.Honest (k : Nat) (ic : Option InnerCipher) (payloads : Payloads) : Input → Prop
  | .control payload _ _ => HonestControl k ic payloads payload
  | .controlActor payload _ => HonestControl k ic payloads payload
  | _ => True

theorem respond_sound (input : Input) (atLeast : 2 ≤ k) (small : k ≤ 64)
    (honest : input.Honest k ic payloads) (sound : SoundDecoder k ic payloads decoder) :
    SoundDecoder k ic payloads (respond payloads decoder input).1 ∧
      Correct payloads (respond payloads decoder input).2 := by
  have silent : Correct payloads [] := fun entry member => by cases member
  cases input with
  | data seq progress => exact onData_sound decoder seq progress atLeast small sound
  | dataBatch entries =>
    apply onDataBatch_sound decoder _ atLeast small sound
    intro entry member
    obtain ⟨source, _, rfl⟩ := List.mem_map.mp member
    rfl
  | control payload before after =>
    exact onControl_sound decoder payload before after atLeast small honest sound
  | dataActor seq expected =>
    obtain ⟨stepped, correct⟩ :=
      onData_sound decoder seq (some expected) atLeast small sound
    rw [respond_dataActor]
    exact ⟨stepped, correct⟩
  | controlActor payload expected =>
    rw [respond_controlActor]
    exact onControl_sound decoder payload (some expected) (some expected) atLeast small honest
      sound
  | staticSingle single => exact ⟨setStaticSinglePath_soundDecoder decoder single sound, silent⟩
  | reset => exact ⟨reset_soundDecoder decoder sound, silent⟩

theorem respondAll_sound (inputs : List Input) (atLeast : 2 ≤ k) (small : k ≤ 64)
    (honest : ∀ input ∈ inputs, input.Honest k ic payloads)
    (sound : SoundDecoder k ic payloads decoder) :
    Correct payloads (respondAll payloads decoder inputs).2 := by
  induction inputs generalizing decoder with
  | nil => exact fun entry member => by cases member
  | cons input rest ih =>
    obtain ⟨stepped, correct⟩ := respond_sound decoder input atLeast small
      (honest input List.mem_cons_self) sound
    intro entry member
    rcases List.mem_append.mp member with first | later
    · exact correct entry first
    · exact ih _ (fun other present => honest other (List.mem_cons_of_mem input present)) stepped
        entry later

/-- FEC soundness: whatever is lost, repeated, reordered, fenced, retired,
evicted or overwritten, a frame the decoder emits under a number is the payload
of that number. -/
theorem recovered_frames_are_payloads (k : Nat) (ic : Option InnerCipher) (payloads : Payloads)
    (inputs : List Input) (atLeast : 2 ≤ k) (atMost : k ≤ 64)
    (honest : ∀ input ∈ inputs, input.Honest k ic payloads) :
    ∀ entry ∈ (respondAll payloads (FecDecoder.new k ic) inputs).2,
      entry.2 = payloads.bytes entry.1 :=
  respondAll_sound (FecDecoder.new k ic) inputs atLeast atMost honest
    (new_soundDecoder atLeast atMost)

def samplePayloads : Payloads where
  bytes := fun seq => List.replicate (seq % 7 + 1) (UInt8.ofNat seq)
  nonempty := by simp
  fits := by
    intro seq
    have small := Nat.mod_lt seq (show 0 < 7 by decide)
    simp only [List.length_replicate, gcmTagSize, u32Max]
    omega

def sampleParity : Bytes :=
  ((emitted samplePayloads (FecEncoder.new 3 (some zeroTagCipher))
    [.add 4, .add 5, .add 6]).headD ([], [])).2

theorem sampleParity_aligned : AlignedParity 3 (some zeroTagCipher) samplePayloads 4 sampleParity := by
  refine ⟨by decide, [.add 4, .add 5, .add 6], ?_, by decide +kernel⟩
  simp [EncoderOp.InRange, u32Max]

def sampleInputs : List Input :=
  [.data 6 none, .control sampleParity none none, .data 6 none, .dataActor 4 1, .data 4 none]

theorem recovered_frames_sample :
    (respondAll samplePayloads (FecDecoder.new 3 (some zeroTagCipher)) sampleInputs).2 =
        [(5, [5, 5, 5, 5, 5, 5])] ∧
      ∀ entry ∈ (respondAll samplePayloads (FecDecoder.new 3 (some zeroTagCipher)) sampleInputs).2,
        entry.2 = samplePayloads.bytes entry.1 := by
  refine ⟨by decide +kernel,
    recovered_frames_are_payloads 3 (some zeroTagCipher) samplePayloads sampleInputs (by decide)
      (by decide) ?_⟩
  simp only [sampleInputs, List.mem_cons, List.not_mem_nil, or_false, forall_eq_or_imp, forall_eq,
    Input.Honest, and_true, true_and]
  intro _
  exact ⟨4, sampleParity_aligned⟩

end Runs

end TlsVpn.Fec
