import TlsVpn.Checked
import TlsVpn.Words

/-!
TCP Brutal: `configure_tcp_brutal` of net.rs, which switches a socket to the brutal
congestion algorithm or leaves it as it was, and the negotiation of the two rates in
`handle_handshake`. Rates are Mbps, and bytes per second where a name ends in bps.
-/

namespace TlsVpn.Brutal

open Words

def maxBrutalRateMbps : Nat := 1000000

def brutalV2Version : Nat := 0x020000

def brutalCwndGain : Nat := 20

section Params

def le64 (word : Nat) : List UInt8 := (be64 word).reverse

def le32 (word : Nat) : List UInt8 := (be32 word).reverse

/-- `none` is a rate outside the supported range. -/
def encodeBrutalParamsBps (rateBps gain : Nat) (groupId : Option Nat) : Option (List UInt8) :=
  if rateBps = 0 ∨ rateBps > maxBrutalRateMbps * 1000000 / 8 then none
  else some (le64 rateBps ++ le32 gain ++ (groupId.map le64).getD [])

structure BrutalParams where
  rateBps : Nat
  cwndGain : Nat
  groupId : Nat

/-- `none` is an invalid length. -/
def decodeBrutalParamsBps (params : List UInt8) : Option BrutalParams :=
  if params.length ≠ 12 ∧ params.length ≠ 20 then none
  else
    some {
      rateBps := readBe64 (params.take 8).reverse
      cwndGain := readBe32 ((params.drop 8).take 4).reverse
      groupId := if params.length = 20 then readBe64 (params.drop 12).reverse else 0 }

end Params

section Configuration

/-- The kernel's name of a congestion algorithm. -/
abbrev Algorithm := { name : String // name ≠ "" }

def brutal : Algorithm := ⟨"brutal", by decide⟩

inductive BrutalSockError where
  | locked
  | noVersion
  | other (message : String)
  deriving DecidableEq

inductive BrutalError where
  | rateOutside (totalRate : Nat)
  | lockedElsewhere
  | congestion (error : BrutalSockError)
  | version (error : BrutalSockError)
  | noShare
  | byteRateOutside (rateBps : Nat)
  | params (error : BrutalSockError)
  | lockedRate
  | readback (error : BrutalSockError)

structure BrutalApplyResult where
  attempted : Bool := false
  applied : Bool := false
  ruleManaged : Bool := false
  version : Nat := 0
  rateBps : Nat := 0
  rateMbps : Nat := 0
  cwndGain : Nat := 0
  groupId : Nat := 0
  error : Option BrutalError := none

/-- The socket as the kernel has it: its algorithm and the parameters it accepted last. -/
structure Socket where
  algorithm : Algorithm
  params : Option (List UInt8)

/-- What the calls of `BrutalSocketOps` answer. Each place of the code makes its call once at
most, so an answer for each place is a behaviour of the socket. A call without an error does
what it says, and a failed call changes nothing. -/
structure Answers where
  previous : Option BrutalSockError
  enable : Option BrutalSockError
  relook : Option BrutalSockError
  version : Except BrutalSockError Nat
  restore : Option BrutalSockError
  setParams : Option BrutalSockError
  getParams : Except BrutalSockError (List UInt8)

/-- `get_congestion().unwrap_or_default()`; `none` is the empty text. -/
def Socket.getCongestion (socket : Socket) (answer : Option BrutalSockError) : Option Algorithm :=
  if answer.isNone then some socket.algorithm else none

def Socket.setCongestion (socket : Socket) (algorithm : Algorithm)
    (answer : Option BrutalSockError) : Socket :=
  if answer.isNone then { socket with algorithm := algorithm } else socket

/-- `if !previous.is_empty() && previous != "brutal" { let _ = set_congestion(&previous) }` -/
def Socket.rollBack (socket : Socket) (previous : Option Algorithm)
    (answer : Option BrutalSockError) : Socket :=
  match previous with
  | some algorithm => if algorithm ≠ brutal then socket.setCongestion algorithm answer else socket
  | none => socket

/-- What the result says once the parameters are set or locked. -/
def readBack (result : BrutalApplyResult) (answer : Except BrutalSockError (List UInt8))
    (rateBps groupId : Nat) : BrutalApplyResult :=
  let actual : Except BrutalSockError BrutalParams := answer.bind fun params =>
    match decodeBrutalParamsBps params with
    | some actual => .ok actual
    | none => .error (.other "invalid TCP_BRUTAL_PARAMS length")
  let read := match actual with
    | .ok actual =>
      { result with
        rateBps := actual.rateBps
        rateMbps := actual.rateBps * 8 % 2 ^ 64 / 1000000
        cwndGain := actual.cwndGain
        groupId := actual.groupId }
    | .error error =>
      if error = BrutalSockError.locked ∧ result.ruleManaged then
        { result with rateBps := 0, rateMbps := 0, groupId := 0, error := some .lockedRate }
      else
        { result with
          rateBps := rateBps
          rateMbps := rateBps * 8 / 1000000
          groupId := groupId
          error := some (.readback error) }
  { read with applied := true }

/-- The rest of `configure_tcp_brutal`, with the version known. -/
def setRate (result : BrutalApplyResult) (socket : Socket) (previous : Option Algorithm)
    (answers : Answers) (version totalRate legacyRateBps groupId : Nat) :
    BrutalApplyResult × Socket :=
  let useGroup := version ≥ brutalV2Version ∧ groupId ≠ 0
  let rateBps := if useGroup then totalRate * 1000000 / 8 else legacyRateBps
  if rateBps = 0 then
    ({ result with error := some .noShare }, socket.rollBack previous answers.restore)
  else
    match encodeBrutalParamsBps rateBps brutalCwndGain (if useGroup then some groupId else none) with
    | none => ({ result with error := some (.byteRateOutside rateBps) }, socket)
    | some params =>
      let group := if useGroup then groupId else 0
      match answers.setParams with
      | none =>
        (readBack result answers.getParams rateBps group, { socket with params := some params })
      | some .locked =>
        (readBack { result with ruleManaged := true } answers.getParams rateBps group, socket)
      | some error =>
        ({ result with error := some (.params error) }, socket.rollBack previous answers.restore)

/-- The rest of `configure_tcp_brutal`, with the algorithm in force. -/
def configureSwitched (result : BrutalApplyResult) (socket : Socket) (previous : Option Algorithm)
    (answers : Answers) (totalRate legacyRateBps groupId : Nat) : BrutalApplyResult × Socket :=
  match answers.version with
  | .ok version =>
    setRate { result with version := version } socket previous answers version totalRate
      legacyRateBps groupId
  | .error .noVersion => setRate result socket previous answers 0 totalRate legacyRateBps groupId
  | .error error =>
    ({ result with error := some (.version error) }, socket.rollBack previous answers.restore)

def configureTcpBrutal (socket : Socket) (answers : Answers)
    (totalRate legacyRateBps groupId : Nat) : BrutalApplyResult × Socket :=
  let result : BrutalApplyResult := { attempted := true, cwndGain := brutalCwndGain }
  if totalRate = 0 ∨ totalRate > maxBrutalRateMbps then
    ({ result with error := some (.rateOutside totalRate) }, socket)
  else
    let previous := socket.getCongestion answers.previous
    match answers.enable with
    | none =>
      configureSwitched result { socket with algorithm := brutal } previous answers totalRate
        legacyRateBps groupId
    | some .locked =>
      if socket.getCongestion answers.relook ≠ some brutal then
        ({ result with error := some .lockedElsewhere }, socket)
      else
        configureSwitched { result with ruleManaged := true } socket previous answers totalRate
          legacyRateBps groupId
    | some error => ({ result with error := some (.congestion error) }, socket)

/-- Off, with the algorithm of before; or on, with the parameters accepted or locked. -/
inductive Settled (before : Algorithm) (answers : Answers) : BrutalApplyResult × Socket → Prop where
  | off (result : BrutalApplyResult) (after : Socket) (unapplied : result.applied = false)
      (unchanged : after.algorithm = before) : Settled before answers (result, after)
  | on (result : BrutalApplyResult) (after : Socket) (applied : result.applied = true)
      (switched : after.algorithm = brutal)
      (params : (∃ rate group, after.params = encodeBrutalParamsBps rate brutalCwndGain group ∧
          after.params.isSome = true ∧ answers.setParams = none) ∨
        answers.setParams = some .locked) :
      Settled before answers (result, after)

variable {before : Algorithm} {answers : Answers} {socket : Socket} {result : BrutalApplyResult}

theorem rollBack_restores (before : Algorithm) (restores : answers.restore = none)
    (switched : socket.algorithm = brutal) :
    (socket.rollBack (some before) answers.restore).algorithm = before := by
  rw [restores]
  change (if before ≠ brutal then socket.setCongestion before none else socket).algorithm = before
  by_cases same : before = brutal
  · rw [if_neg (not_not_intro same), switched, same]
  · rw [if_pos same]
    rfl

theorem setRate_settled (version totalRate legacyRateBps groupId : Nat)
    (restores : answers.restore = none) (switched : socket.algorithm = brutal)
    (unapplied : result.applied = false) (bounded : totalRate ≤ maxBrutalRateMbps)
    (share : legacyRateBps ≤ totalRate * 1000000 / 8) :
    Settled before answers
      (setRate result socket (some before) answers version totalRate legacyRateBps groupId) := by
  have restored := rollBack_restores before restores switched
  unfold setRate
  dsimp only
  generalize (if version ≥ brutalV2Version ∧ groupId ≠ 0 then some groupId else none) = group
  generalize supported : (if version ≥ brutalV2Version ∧ groupId ≠ 0 then totalRate * 1000000 / 8
    else legacyRateBps) = rateBps
  split
  · exact .off _ _ unapplied restored
  · rename_i nonzero
    have within : ¬ rateBps > maxBrutalRateMbps * 1000000 / 8 := by
      unfold maxBrutalRateMbps at *
      split at supported <;> omega
    have encoded : encodeBrutalParamsBps rateBps brutalCwndGain group =
        some (le64 rateBps ++ le32 brutalCwndGain ++ (group.map le64).getD []) :=
      if_neg (not_or_intro nonzero within)
    rw [encoded]
    dsimp only
    split
    · rename_i accepted
      exact .on _ _ rfl switched (.inl ⟨rateBps, group, encoded.symm, rfl, accepted⟩)
    · rename_i locked
      exact .on _ _ rfl switched (.inr locked)
    · exact .off _ _ unapplied restored

theorem configureSwitched_settled (totalRate legacyRateBps groupId : Nat)
    (restores : answers.restore = none) (switched : socket.algorithm = brutal)
    (unapplied : result.applied = false) (bounded : totalRate ≤ maxBrutalRateMbps)
    (share : legacyRateBps ≤ totalRate * 1000000 / 8) :
    Settled before answers
      (configureSwitched result socket (some before) answers totalRate legacyRateBps groupId) := by
  unfold configureSwitched
  split
  · exact setRate_settled _ _ _ _ restores switched unapplied bounded share
  · exact setRate_settled _ _ _ _ restores switched unapplied bounded share
  · exact .off _ _ unapplied (rollBack_restores before restores switched)

/-- With a readable algorithm that can be restored, and a share within the total, the switch to
brutal is made as a whole or not at all. -/
theorem brutal_all_or_nothing (socket : Socket) (answers : Answers)
    (totalRate legacyRateBps groupId : Nat) (readable : answers.previous = none)
    (restores : answers.restore = none) (share : legacyRateBps ≤ totalRate * 1000000 / 8) :
    Settled socket.algorithm answers
      (configureTcpBrutal socket answers totalRate legacyRateBps groupId) := by
  unfold configureTcpBrutal
  dsimp only
  split
  · exact .off _ _ rfl rfl
  · rename_i inside
    have bounded : totalRate ≤ maxBrutalRateMbps := by omega
    have known : socket.getCongestion answers.previous = some socket.algorithm := by
      rw [readable]
      rfl
    rw [known]
    split
    · exact configureSwitched_settled _ _ _ restores rfl rfl bounded share
    · split
      · exact .off _ _ rfl rfl
      · rename_i same
        have switched : socket.algorithm = brutal := by
          unfold Socket.getCongestion at same
          split at same
          · exact Option.some.inj (not_not.mp same)
          · cases not_not.mp same
        exact configureSwitched_settled _ _ _ restores switched rfl bounded share
    · exact .off _ _ rfl rfl

/-- A socket under cubic whose version cannot be read goes back to cubic. -/
theorem brutal_all_or_nothing_unreadable_version :
    Settled ⟨"cubic", by decide⟩ ⟨none, none, none, .error .locked, none, none, .ok []⟩
      (configureTcpBrutal ⟨⟨"cubic", by decide⟩, none⟩
        ⟨none, none, none, .error .locked, none, none, .ok []⟩ 100 12500000 7) :=
  brutal_all_or_nothing ⟨⟨"cubic", by decide⟩, none⟩ _ 100 12500000 7 rfl rfl (by decide)

end Configuration

section Negotiation

/-- The server's budgets, as the configuration check leaves them; 0 is no limit. -/
structure Budgets where
  brutalUp : Nat
  brutalDown : Nat
  upValid : brutalUp ≤ maxBrutalRateMbps
  downValid : brutalDown ≤ maxBrutalRateMbps

structure Offer where
  brutalGroups : Bool
  brutalTotalTx : Nat
  brutalTotalRx : Nat
  brutalConns : Int
  brutalConnIndex : Int

structure Negotiated where
  groupOffer : Bool
  serverTxRate : Nat
  clientTxRate : Nat
  serverLegacyRateBps : Nat

def splitLegacyBrutalRateBps (totalMbps conns index : Nat) : Checked Nat :=
  if totalMbps = 0 ∨ conns = 0 ∨ index ≥ conns then pure 0
  else do
    let bits ← Checked.mulNat 64 totalMbps 1000000
    let totalBps := bits / 8
    Checked.addNat 64 (totalBps / conns) (if index < totalBps % conns then 1 else 0)

def negotiateRate (budget requested : Nat) : Nat :=
  if requested > 0 ∧ (budget = 0 ∨ requested < budget) then requested else budget

def Offer.groupOffer (offer : Offer) : Bool :=
  offer.brutalGroups && decide (offer.brutalConns > 0) && decide (offer.brutalConns ≤ 65536) &&
    decide (offer.brutalConnIndex ≥ 0) && decide (offer.brutalConnIndex < offer.brutalConns) &&
    decide (offer.brutalTotalTx ≤ maxBrutalRateMbps) &&
    decide (offer.brutalTotalRx ≤ maxBrutalRateMbps)

/-- The part of `handle_handshake` on TCP Brutal. The server's downlink is the client's rx. -/
def negotiate (core : Budgets) (req : Offer) : Checked Negotiated := do
  let requestedRx := if req.groupOffer then req.brutalTotalRx else 0
  let requestedTx := if req.groupOffer then req.brutalTotalTx else 0
  let serverTxRate := negotiateRate core.brutalDown requestedRx
  let clientTxRate := negotiateRate core.brutalUp requestedTx
  let serverLegacyRateBps ←
    if req.groupOffer then
      splitLegacyBrutalRateBps serverTxRate req.brutalConns.toNat req.brutalConnIndex.toNat
    else do
      let bits ← Checked.mulNat 64 serverTxRate 1000000
      pure (bits / 8)
  return ⟨req.groupOffer, serverTxRate, clientTxRate, serverLegacyRateBps⟩

/-- The shares of a total: they add up to it, are as equal as can be, the larger ones first. -/
structure SharesOut (totalMbps conns : Nat) : Prop where
  fits : ∀ index, (splitLegacyBrutalRateBps totalMbps conns index).overflow = false
  sum : ∑ index ∈ Finset.range conns, (splitLegacyBrutalRateBps totalMbps conns index).value =
    totalMbps * 1000000 / 8
  even : ∀ index < conns, ∀ other < conns,
    (splitLegacyBrutalRateBps totalMbps conns index).value ≤
      (splitLegacyBrutalRateBps totalMbps conns other).value + 1
  antitone : ∀ index other, index ≤ other → other < conns →
    (splitLegacyBrutalRateBps totalMbps conns other).value ≤
      (splitLegacyBrutalRateBps totalMbps conns index).value

theorem split_eq {totalMbps conns index : Nat} (bounded : totalMbps ≤ maxBrutalRateMbps)
    (inside : index < conns) :
    splitLegacyBrutalRateBps totalMbps conns index =
      pure (totalMbps * 1000000 / 8 / conns +
        if index < totalMbps * 1000000 / 8 % conns then 1 else 0) := by
  unfold splitLegacyBrutalRateBps maxBrutalRateMbps at *
  by_cases zero : totalMbps = 0
  · rw [if_pos (.inl zero), zero, Nat.zero_mul, Nat.zero_div, Nat.zero_div, Nat.zero_mod,
      if_neg (Nat.not_lt_zero _)]
  · have quotient := Nat.div_le_self (totalMbps * 1000000 / 8) conns
    rw [if_neg (by omega), Checked.mulNat_eq (by omega), Checked.pure_then]
    apply Checked.addNat_eq
    split <;> omega

theorem split_shares {totalMbps conns : Nat} (bounded : totalMbps ≤ maxBrutalRateMbps)
    (positive : 0 < conns) : SharesOut totalMbps conns where
  fits index := by
    by_cases inside : index < conns
    · rw [split_eq bounded inside]
      rfl
    · unfold splitLegacyBrutalRateBps
      rw [if_pos (.inr (.inr (Nat.not_lt.mp inside)))]
      rfl
  sum := by
    have shares : ∀ index ∈ Finset.range conns,
        (splitLegacyBrutalRateBps totalMbps conns index).value =
          totalMbps * 1000000 / 8 / conns +
            if index < totalMbps * 1000000 / 8 % conns then 1 else 0 := by
      intro index member
      rw [split_eq bounded (Finset.mem_range.mp member)]
      rfl
    have larger : (Finset.range conns).filter (· < totalMbps * 1000000 / 8 % conns) =
        Finset.range (totalMbps * 1000000 / 8 % conns) := by
      ext index
      have below := Nat.mod_lt (totalMbps * 1000000 / 8) positive
      rw [Finset.mem_filter, Finset.mem_range, Finset.mem_range]
      omega
    rw [Finset.sum_congr rfl shares, Finset.sum_add_distrib, Finset.sum_const, Finset.card_range,
      smul_eq_mul, Finset.sum_boole, larger, Finset.card_range, Nat.cast_id, Nat.div_add_mod]
  even index inside other there := by
    rw [split_eq bounded inside, split_eq bounded there, Checked.pure_value, Checked.pure_value]
    split <;> split <;> omega
  antitone index other ordered there := by
    rw [split_eq bounded (Nat.lt_of_le_of_lt ordered there), split_eq bounded there,
      Checked.pure_value, Checked.pure_value]
    split <;> split <;> omega

theorem negotiateRate_within {budget requested limit : Nat} (valid : budget ≤ limit)
    (asked : requested ≤ limit) :
    (budget ≠ 0 → negotiateRate budget requested ≤ budget) ∧
      (requested ≠ 0 → negotiateRate budget requested ≤ requested) ∧
      negotiateRate budget requested ≤ limit := by
  unfold negotiateRate
  split <;> omega

theorem groupOffer_valid {offer : Offer} (valid : offer.groupOffer = true) :
    0 < offer.brutalConns.toNat ∧ offer.brutalTotalTx ≤ maxBrutalRateMbps ∧
      offer.brutalTotalRx ≤ maxBrutalRateMbps := by
  unfold Offer.groupOffer at valid
  simp only [Bool.and_eq_true, decide_eq_true_eq] at valid
  obtain ⟨⟨⟨⟨⟨⟨-, positive⟩, -⟩, -⟩, -⟩, tx⟩, rx⟩ := valid
  exact ⟨by omega, tx, rx⟩

/-- The request of another connection of the same group. -/
def Offer.at (offer : Offer) (index : Nat) : Offer := { offer with brutalConnIndex := index }

theorem groupOffer_at {offer : Offer} (valid : offer.groupOffer = true) {index : Nat}
    (inside : index < offer.brutalConns.toNat) : (offer.at index).groupOffer = true := by
  unfold Offer.groupOffer Offer.at at *
  simp only [Bool.and_eq_true, decide_eq_true_eq] at valid ⊢
  obtain ⟨⟨⟨⟨⟨⟨groups, positive⟩, most⟩, -⟩, -⟩, tx⟩, rx⟩ := valid
  exact ⟨⟨⟨⟨⟨⟨groups, positive⟩, most⟩, by omega⟩, by omega⟩, tx⟩, rx⟩

theorem negotiate_group {core : Budgets} {req : Offer} (offered : req.groupOffer = true) :
    negotiate core req = do
      let rate ← splitLegacyBrutalRateBps (negotiateRate core.brutalDown req.brutalTotalRx)
        req.brutalConns.toNat req.brutalConnIndex.toNat
      return ⟨true, negotiateRate core.brutalDown req.brutalTotalRx,
        negotiateRate core.brutalUp req.brutalTotalTx, rate⟩ := by
  simp only [negotiate, offered, if_true]

/-- Each negotiated total is within both budgets, and for a group offer the legacy rates of its
connections share it out exactly: the rate a request is given is the share of its index, and
the requests of the group are given the whole. Nothing overflows on the way. -/
theorem negotiation_respects_budgets (core : Budgets) (req : Offer) :
    (negotiate core req).overflow = false ∧
      (core.brutalDown ≠ 0 → (negotiate core req).value.serverTxRate ≤ core.brutalDown) ∧
      (core.brutalUp ≠ 0 → (negotiate core req).value.clientTxRate ≤ core.brutalUp) ∧
      (req.groupOffer = true →
        (req.brutalTotalRx ≠ 0 → (negotiate core req).value.serverTxRate ≤ req.brutalTotalRx) ∧
        (req.brutalTotalTx ≠ 0 → (negotiate core req).value.clientTxRate ≤ req.brutalTotalTx) ∧
        SharesOut (negotiate core req).value.serverTxRate req.brutalConns.toNat ∧
        SharesOut (negotiate core req).value.clientTxRate req.brutalConns.toNat ∧
        (negotiate core req).value.serverLegacyRateBps =
          (splitLegacyBrutalRateBps (negotiate core req).value.serverTxRate
            req.brutalConns.toNat req.brutalConnIndex.toNat).value ∧
        ∑ index ∈ Finset.range req.brutalConns.toNat,
            (negotiate core (req.at index)).value.serverLegacyRateBps =
          (negotiate core req).value.serverTxRate * 1000000 / 8) := by
  cases offered : req.groupOffer with
  | true =>
    obtain ⟨positive, tx, rx⟩ := groupOffer_valid offered
    obtain ⟨down, asked, downBounded⟩ := negotiateRate_within core.downValid rx
    obtain ⟨up, askedUp, upBounded⟩ := negotiateRate_within core.upValid tx
    have shares := split_shares downBounded positive
    have fits := shares.fits req.brutalConnIndex.toNat
    have shared := split_shares upBounded positive
    have whole : ∑ index ∈ Finset.range req.brutalConns.toNat,
        (negotiate core (req.at index)).value.serverLegacyRateBps =
          negotiateRate core.brutalDown req.brutalTotalRx * 1000000 / 8 := by
      rw [← shares.sum]
      refine Finset.sum_congr rfl fun index member => ?_
      rw [negotiate_group (groupOffer_at offered (Finset.mem_range.mp member))]
      rfl
    rw [negotiate_group offered]
    simp only [Checked.bind_value, Checked.bind_overflow, Checked.pure_value, Checked.pure_overflow,
      fits, Bool.or_false]
    exact ⟨trivial, down, up, fun _ => ⟨asked, askedUp, shares, shared, trivial, whole⟩⟩
  | false =>
    obtain ⟨down, -, downBounded⟩ := negotiateRate_within core.downValid (Nat.zero_le _)
    obtain ⟨up, -, -⟩ := negotiateRate_within core.upValid (Nat.zero_le _)
    have fits : negotiateRate core.brutalDown 0 * 1000000 < 2 ^ 64 := by
      unfold maxBrutalRateMbps at downBounded
      omega
    simp only [negotiate, offered, Bool.false_eq_true, if_false, Checked.mulNat_eq fits,
      Checked.pure_then, Checked.pure_value, Checked.pure_overflow]
    exact ⟨trivial, down, up, fun impossible => impossible.elim⟩

end Negotiation

end TlsVpn.Brutal
