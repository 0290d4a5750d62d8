import TlsVpn.Cidr

/-!
The server's address pool: the gateway is the network's base plus one, a request
is granted if it lies in the network and is not used, and otherwise the addresses
between base and broadcast are tried in order, those ending in byte 0 or 255
apart. The two families run the same code at their own width, and the arithmetic
is that of a release build with every overflow noted.

The sets hold texts. How IPv6 addresses are read and written is the standard
library's matter and enters as a format that reads back what it writes.
-/

namespace TlsVpn.Pool

open AddressText Cidr

section Allocation

variable {w : Nat}

structure Range (w : Nat) where
  base : BitVec w
  maskBits : Nat
  deriving DecidableEq

/-- `v4_broadcast` and `v6_broadcast`. -/
def Range.broadcast (range : Range w) : Checked (BitVec w) := do
  let hostBits ← Checked.subCount w range.maskBits
  if hostBits ≥ w then return BitVec.allOnes w
  else
    let bit ← Checked.shl 1#w hostBits
    let hosts ← Checked.sub bit 1#w
    return range.base ||| hosts

/-- `in_net`. -/
def Range.contains (range : Range w) (address : BitVec w) : Checked Bool := do
  let hostBits ← Checked.subCount w range.maskBits
  if hostBits ≥ w then return true
  else
    let own ← Checked.shr address hostBits
    let wanted ← Checked.shr range.base hostBits
    return own == wanted

def lastByte (address : BitVec w) : BitVec w := address &&& BitVec.ofNat w 0xFF

/-- An address the scan may hand out. -/
def offered (address : BitVec w) : Bool :=
  lastByte address != 0 && lastByte address != BitVec.ofNat w 0xFF

variable (format : AddressFormat w) (used : Finset Text)

/-- The scan, with as many turns as there are addresses below the broadcast. -/
def scan (broadcast : BitVec w) : Nat → BitVec w → Checked (Option (BitVec w))
  | 0, _ => pure none
  | turns + 1, cur =>
    if cur.toNat < broadcast.toNat then
      if offered cur && decide (format.text cur ∉ used) then pure (some cur)
      else do
        let next ← Checked.add cur 1#w
        scan broadcast turns next
    else pure none

/-- The addresses the scan looks at, in order. -/
def examined (broadcast : BitVec w) : Nat → BitVec w → List (BitVec w)
  | 0, _ => []
  | turns + 1, cur =>
    if cur.toNat < broadcast.toNat then
      if offered cur && decide (format.text cur ∉ used) then [cur]
      else cur :: examined broadcast turns (cur + 1#w)
    else []

def Range.scanned (range : Range w) : Checked (Option (BitVec w)) := do
  let broadcast ← range.broadcast
  let first ← Checked.add range.base 1#w
  scan format used broadcast (broadcast.toNat - first.toNat) first

/-- The requested address, if it can be read, lies in the network and is free. -/
def Range.requested (range : Range w) (req : Text) : Checked (Option (BitVec w)) :=
  match format.parse (cut '/' req).1 with
  | some address => do
      let inNet ← range.contains address
      return if inNet && decide (format.text address ∉ used) then some address else none
  | none => pure none

def granted : Option (BitVec w) → Text × Finset Text
  | some address => (format.text address, insert (format.text address) used)
  | none => ([], used)

def Range.alloc (range : Range w) (req : Text) : Checked (Text × Finset Text) := do
  match ← range.requested format used req with
  | some address => return granted format used (some address)
  | none =>
    let found ← range.scanned format used
    return granted format used found

/-- The addresses an allocation looks at: the requested one, if it can be read, and those of the
scan unless the request is granted. -/
def Range.examined (range : Range w) (req : Text) : List (BitVec w) :=
  let first := range.base + 1#w
  let broadcast := range.broadcast.value
  (format.parse (cut '/' req).1).toList ++
    if (range.requested format used req).value.isSome then []
    else Pool.examined format used broadcast (broadcast.toNat - first.toNat) first

end Allocation

section Pool

structure IpPool where
  usedV4 : Finset Text
  usedV6 : Finset Text
  v4 : Range 32
  v6 : Range 128
  macToIp : Text → Option (Text × Text)

variable (v6Format : AddressFormat 128)

def IpPool.starting (v4 : Range 32) (v6 : Range 128) (gwV4 gwV6 : Text) : IpPool where
  usedV4 := {gwV4}
  usedV6 := {gwV6}
  v4 := v4
  v6 := v6
  macToIp := fun _ => none

def IpPool.new (v4cidr v6cidr : Text) : Checked (IpPool × Text × Text) := do
  let (v4Base, v4MaskBits) ← parseV4Cidr v4cidr
  let (v6Base, v6MaskBits) ← parseV6Cidr v6Format.parse v6cidr
  let gwV4 ← Checked.add v4Base 1#32
  let gwV6 ← Checked.add v6Base 1#128
  return (IpPool.starting ⟨v4Base, v4MaskBits⟩ ⟨v6Base, v6MaskBits⟩ (dotted.text gwV4)
    (v6Format.text gwV6), dotted.text gwV4, v6Format.text gwV6)

def IpPool.allocV4 (pool : IpPool) (req : Text) : Checked (Text × IpPool) := do
  let (text, used) ← pool.v4.alloc dotted pool.usedV4 req
  return (text, { pool with usedV4 := used })

def IpPool.allocV6 (pool : IpPool) (req : Text) : Checked (Text × IpPool) := do
  let (text, used) ← pool.v6.alloc v6Format pool.usedV6 req
  return (text, { pool with usedV6 := used })

/-- The binding goes too, if it still is to this address. -/
def IpPool.release (pool : IpPool) (mac v4 v6 : Text) : IpPool :=
  { pool with
    usedV4 := pool.usedV4.erase v4
    usedV6 := pool.usedV6.erase v6
    macToIp := fun key =>
      if key = mac ∧ (pool.macToIp mac).any (fun binding => binding.1 == v4) then none
      else pool.macToIp key }

def IpPool.bind (pool : IpPool) (mac v4 v6 : Text) : IpPool :=
  { pool with macToIp := fun key => if key = mac then some (v4, v6) else pool.macToIp key }

end Pool

section Scan

variable {w : Nat} {format : AddressFormat w} {used : Finset Text}
variable {bound : BitVec w} (broadcast : BitVec w) (turns : Nat) (cur address : BitVec w)

theorem next_toNat {cur : BitVec w} (below : cur.toNat < bound.toNat) :
    (cur + 1#w).toNat = cur.toNat + 1 := by
  have most := bound.isLt
  have wide : 1 < 2 ^ w := by omega
  rw [BitVec.toNat_add, BitVec.toNat_ofNat, Nat.mod_eq_of_lt wide]
  exact Nat.mod_eq_of_lt (by omega)

theorem add_one_eq {cur : BitVec w} (below : cur.toNat < bound.toNat) :
    Checked.add cur 1#w = ⟨cur + 1#w, false⟩ := by
  have most := bound.isLt
  apply Checked.add_eq
  rw [BitVec.toNat_ofNat, Nat.mod_eq_of_lt (by omega)]
  omega

theorem scan_some (found : BitVec w)
    (result : (scan format used broadcast turns cur).value = some found) :
    (examined format used broadcast turns cur).getLast? = some found ∧
      cur.toNat ≤ found.toNat ∧ found.toNat < broadcast.toNat ∧ offered found = true ∧
      format.text found ∉ used := by
  induction turns generalizing cur with
  | zero => cases result
  | succ turns ih =>
    unfold scan at result
    unfold examined
    by_cases below : cur.toNat < broadcast.toNat
    · rw [if_pos below] at result ⊢
      split at result
      · rename_i free
        cases result
        obtain ⟨onOffer, unused⟩ := Bool.and_eq_true_iff.mp free
        rw [if_pos free]
        exact ⟨rfl, Nat.le_refl _, below, onOffer, of_decide_eq_true unused⟩
      · rename_i refused
        rw [add_one_eq below] at result
        obtain ⟨last, after, rest⟩ := ih (cur + 1#w) result
        rw [next_toNat below] at after
        rw [if_neg refused, List.getLast?_cons, last]
        exact ⟨rfl, Nat.le_of_succ_le after, rest⟩
    · rw [if_neg below] at result
      cases result

theorem mem_examined (enough : broadcast.toNat - cur.toNat ≤ turns)
    (nothing : (scan format used broadcast turns cur).value = none)
    (after : cur.toNat ≤ address.toNat) (before : address.toNat < broadcast.toNat) :
    address ∈ examined format used broadcast turns cur := by
  induction turns generalizing cur with
  | zero => omega
  | succ turns ih =>
    have below : cur.toNat < broadcast.toNat := Nat.lt_of_le_of_lt after before
    unfold scan at nothing
    unfold examined
    rw [if_pos below] at nothing ⊢
    split at nothing
    · cases nothing
    · rename_i refused
      rw [if_neg refused]
      rcases Nat.eq_or_lt_of_le after with same | later
      · rw [BitVec.eq_of_toNat_eq same]
        exact List.mem_cons_self
      · rw [add_one_eq below] at nothing
        have next := next_toNat below
        exact List.mem_cons_of_mem _ (ih (cur + 1#w) (by omega) nothing (by omega))

theorem examined_taken (member : address ∈ examined format used broadcast turns cur)
    (onOffer : offered address = true) :
    format.text address ∈ (granted format used (scan format used broadcast turns cur).value).2 := by
  induction turns generalizing cur with
  | zero => cases member
  | succ turns ih =>
    unfold examined at member
    unfold scan
    split at member
    · rename_i below
      rw [if_pos below]
      split at member
      · rename_i free
        rw [if_pos free, List.mem_singleton.mp member]
        exact Finset.mem_insert_self _ _
      · rename_i refused
        rw [if_neg refused, add_one_eq below]
        change _ ∈ (granted format used (scan format used broadcast turns (cur + 1#w)).value).2
        rcases List.mem_cons.mp member with same | later
        · subst same
          have taken : format.text address ∈ used := by
            by_contra free
            rw [onOffer, decide_eq_true free] at refused
            exact refused rfl
          cases (scan format used broadcast turns (address + 1#w)).value with
          | none => exact taken
          | some _ => exact Finset.mem_insert_of_mem taken
        · exact ih _ later
    · cases member

theorem scan_none (enough : broadcast.toNat - cur.toNat ≤ turns)
    (result : (scan format used broadcast turns cur).value = none) (address : BitVec w)
    (after : cur.toNat ≤ address.toNat) (before : address.toNat < broadcast.toNat)
    (onOffer : offered address = true) : format.text address ∈ used := by
  have member := mem_examined broadcast turns cur address enough result after before
  have taken := examined_taken broadcast turns cur address member onOffer
  rw [result] at taken
  exact taken

inductive Granted (format : AddressFormat w) (range : Range w) (used : Finset Text) (req : Text) :
    Text × Finset Text → Prop where
  | requested (address : BitVec w) (read : format.parse (cut '/' req).1 = some address)
      (inside : (range.contains address).value = true) (free : format.text address ∉ used) :
      Granted format range used req (format.text address, insert (format.text address) used)
  | scanned (address : BitVec w) (after : (range.base + 1#w).toNat ≤ address.toNat)
      (before : address.toNat < range.broadcast.value.toNat) (onOffer : offered address = true)
      (free : format.text address ∉ used) :
      Granted format range used req (format.text address, insert (format.text address) used)
  | exhausted (all : ∀ address : BitVec w, (range.base + 1#w).toNat ≤ address.toNat →
        address.toNat < range.broadcast.value.toNat → offered address = true →
        format.text address ∈ used) :
      Granted format range used req ([], used)

theorem Range.requested_some {range : Range w} {req : Text} {address : BitVec w}
    (wanted : (range.requested format used req).value = some address) :
    format.parse (cut '/' req).1 = some address ∧ (range.contains address).value = true ∧
      format.text address ∉ used := by
  unfold Range.requested at wanted
  cases read : format.parse (cut '/' req).1 with
  | none =>
    rw [read] at wanted
    cases wanted
  | some parsed =>
    rw [read] at wanted
    change (if _ then some parsed else none) = some address at wanted
    split at wanted
    · rename_i passes
      cases wanted
      obtain ⟨inside, free⟩ := Bool.and_eq_true_iff.mp passes
      exact ⟨rfl, inside, of_decide_eq_true free⟩
    · cases wanted

theorem alloc_granted (format : AddressFormat w) (range : Range w) (used : Finset Text)
    (req : Text) : Granted format range used req (range.alloc format used req).value := by
  unfold Range.alloc
  rw [Checked.bind_value]
  cases wanted : (range.requested format used req).value with
  | some address =>
    obtain ⟨read, inside, free⟩ := Range.requested_some wanted
    exact .requested address read inside free
  | none =>
    change Granted format range used req (granted format used (range.scanned format used).value)
    cases found : (range.scanned format used).value with
    | some address =>
      obtain ⟨-, after, before, onOffer, free⟩ := scan_some _ _ _ address found
      exact .scanned address after before onOffer free
    | none =>
      apply Granted.exhausted
      intro address after before onOffer
      exact scan_none _ _ _ (Nat.le_refl _) found address after before onOffer

end Scan

section Cost

variable {w : Nat} {format : AddressFormat w} {used : Finset Text}
variable {address : BitVec w} (broadcast : BitVec w) (turns : Nat) (cur : BitVec w)

theorem examined_consecutive :
    (examined format used broadcast turns cur).map BitVec.toNat =
      List.range' cur.toNat (examined format used broadcast turns cur).length := by
  induction turns generalizing cur with
  | zero => rfl
  | succ turns ih =>
    unfold examined
    split
    · rename_i below
      split
      · rfl
      · rw [List.map_cons, ih, next_toNat below]
        rfl
    · rfl

theorem offered_of_inner (wide : 8 ≤ w) (first : address.toNat % 256 ≠ 0)
    (last : address.toNat % 256 ≠ 255) : offered address = true := by
  have byte : (BitVec.ofNat w 0xFF).toNat = 255 := by
    have most := Nat.pow_le_pow_right Nat.two_pos wide
    rw [BitVec.toNat_ofNat]
    exact Nat.mod_eq_of_lt (Nat.lt_of_lt_of_le (by decide) most)
  have low : (lastByte address).toNat = address.toNat % 256 := by
    unfold lastByte
    rw [BitVec.toNat_and, byte]
    exact Nat.and_two_pow_sub_one_eq_mod _ 8
  unfold offered
  rw [Bool.and_eq_true, bne_iff_ne, bne_iff_ne]
  constructor
  · intro same
    rw [same] at low
    exact first (low.symm.trans BitVec.toNat_zero)
  · intro same
    rw [same, byte] at low
    exact last low.symm

theorem inner_count (start count : Nat) :
    count ≤ 2 * ((List.range' start count).filter
      fun number => decide (number % 256 ≠ 0 ∧ number % 256 ≠ 255)).length + 3 := by
  match count with
  | 0 | 1 | 2 | 3 => omega
  | count + 4 =>
    have rest := inner_count (start + 4) count
    simp only [List.range'_succ, List.filter_cons, Nat.add_assoc, Nat.reduceAdd]
    split <;> split <;> split <;> split <;> simp only [List.length_cons, decide_eq_true_eq] at * <;>
      omega

theorem granted_card (found : Option (BitVec w)) :
    (granted format used found).2.card ≤ used.card + 1 := by
  cases found with
  | none => exact Nat.le_succ _
  | some address => exact Finset.card_insert_le _ _

theorem examined_length (wide : 8 ≤ w) :
    (examined format used broadcast turns cur).length ≤ 2 * used.card + 5 := by
  have consecutive := @examined_consecutive w format used broadcast turns cur
  set looked := examined format used broadcast turns cur
  have numbers : (looked.map BitVec.toNat).Nodup := by
    rw [consecutive]
    exact List.nodup_range'
  have distinct : looked.Nodup := numbers.of_map _
  have inner := inner_count cur.toNat looked.length
  rw [← consecutive, List.filter_map, List.length_map] at inner
  -- the texts of those on offer are different ones, and the pool has them all afterwards
  have few : (looked.filter ((fun number => decide (number % 256 ≠ 0 ∧ number % 256 ≠ 255)) ∘
      BitVec.toNat)).length ≤ used.card + 1 := by
    rw [← List.toFinset_card_of_nodup (distinct.filter _)]
    refine (Finset.card_le_card_of_injOn format.text ?_ (format.text_injective.injOn)).trans
      (@granted_card w format used (scan format used broadcast turns cur).value)
    intro address member
    obtain ⟨there, ends⟩ := List.mem_filter.mp (List.mem_toFinset.mp member)
    obtain ⟨first, last⟩ := of_decide_eq_true ends
    exact examined_taken broadcast turns cur address there (offered_of_inner wide first last)
  omega

theorem Range.examined_length (range : Range w) (req : Text) (wide : 8 ≤ w) :
    (range.examined format used req).length ≤ 2 * used.card + 6 := by
  have asked : (format.parse (cut '/' req).1).toList.length ≤ 1 := by
    cases format.parse (cut '/' req).1 with
    | none => exact Nat.zero_le 1
    | some _ => exact Nat.le_refl 1
  have scanned := @Pool.examined_length w format used range.broadcast.value
    (range.broadcast.value.toNat - (range.base + 1#w).toNat) (range.base + 1#w) wide
  unfold Range.examined
  rw [List.length_append]
  split
  · rw [List.length_nil]
    omega
  · omega

theorem Range.exhausted_examined {range : Range w} {req : Text}
    (empty : (range.alloc format used req).value.1 = []) (after : range.base.toNat < address.toNat)
    (before : address.toNat < range.broadcast.value.toNat) :
    address ∈ range.examined format used req := by
  have first := next_toNat after
  have refused : (range.requested format used req).value = none ∧
      (range.scanned format used).value = none := by
    unfold Range.alloc at empty
    rw [Checked.bind_value] at empty
    cases wanted : (range.requested format used req).value with
    | some address =>
      rw [wanted] at empty
      exact absurd empty (format.text_ne_nil address)
    | none =>
      rw [wanted] at empty
      refine ⟨rfl, ?_⟩
      cases found : (range.scanned format used).value with
      | none => rfl
      | some address =>
        rw [Checked.bind_value, found] at empty
        exact absurd empty (format.text_ne_nil address)
  unfold Range.examined
  rw [refused.1]
  apply List.mem_append_right
  exact mem_examined _ _ _ address (Nat.le_refl _) refused.2 (by omega) before

/-- The address an allocation returns is the last one it looks at. -/
theorem Range.alloc_last (range : Range w) (req : Text) :
    (range.alloc format used req).value.1 = [] ∨
      (range.examined format used req).getLast?.map format.text =
        some (range.alloc format used req).value.1 := by
  unfold Range.alloc Range.examined
  rw [Checked.bind_value]
  cases wanted : (range.requested format used req).value with
  | some address =>
    rw [(Range.requested_some wanted).1]
    exact Or.inr rfl
  | none =>
    change (granted format used (range.scanned format used).value).1 = [] ∨ _ = some
      (granted format used (range.scanned format used).value).1
    cases found : (range.scanned format used).value with
    | none => exact Or.inl rfl
    | some address =>
      have last : (Pool.examined format used range.broadcast.value
          (range.broadcast.value.toNat - (range.base + 1#w).toNat) (range.base + 1#w)).getLast? =
            some address := (scan_some _ _ _ address found).1
      refine Or.inr ?_
      dsimp only [Option.isSome_none]
      rw [if_neg Bool.false_ne_true, List.getLast?_append, last]
      rfl

/-- An allocation looks at no more than twice as many addresses as are in use, and six; what it
returns is the last of them, and it comes back empty only if it has looked at every address
between base and broadcast. -/
theorem allocation_cost (v6Format : AddressFormat 128) (pool : IpPool) (req : Text) :
    (pool.v4.examined dotted pool.usedV4 req).length ≤ 2 * pool.usedV4.card + 6 ∧
      (pool.v6.examined v6Format pool.usedV6 req).length ≤ 2 * pool.usedV6.card + 6 ∧
      ((pool.allocV4 req).value.1 = [] ∨
        (pool.v4.examined dotted pool.usedV4 req).getLast?.map dotted.text =
          some (pool.allocV4 req).value.1) ∧
      ((pool.allocV6 v6Format req).value.1 = [] ∨
        (pool.v6.examined v6Format pool.usedV6 req).getLast?.map v6Format.text =
          some (pool.allocV6 v6Format req).value.1) ∧
      ((pool.allocV4 req).value.1 = [] → ∀ address : BitVec 32,
        pool.v4.base.toNat < address.toNat → address.toNat < pool.v4.broadcast.value.toNat →
          address ∈ pool.v4.examined dotted pool.usedV4 req) ∧
      ((pool.allocV6 v6Format req).value.1 = [] → ∀ address : BitVec 128,
        pool.v6.base.toNat < address.toNat → address.toNat < pool.v6.broadcast.value.toNat →
          address ∈ pool.v6.examined v6Format pool.usedV6 req) := by
  refine ⟨?_, ?_, pool.v4.alloc_last req, pool.v6.alloc_last req, ?_, ?_⟩
  · exact pool.v4.examined_length req (by decide)
  · exact pool.v6.examined_length req (by decide)
  · exact fun empty _ after before => Range.exhausted_examined empty after before
  · exact fun empty _ after before => Range.exhausted_examined empty after before

end Cost

section Networks

variable {w : Nat}

def Inside (base : BitVec w) (bits : Nat) (address : BitVec w) : Prop :=
  base.toNat ≤ address.toNat ∧ address.toNat < base.toNat + 2 ^ (w - bits)

def UsableHost (base : BitVec w) (bits : Nat) (address : BitVec w) : Prop :=
  Inside base bits address ∧ address.toNat ≠ base.toNat ∧
    address.toNat ≠ base.toNat + 2 ^ (w - bits) - 1

theorem network_toNat (address : BitVec w) (bits : Nat) :
    (network address bits).toNat = address.toNat / 2 ^ (w - bits) * 2 ^ (w - bits) := by
  unfold network
  rw [BitVec.toNat_shiftLeft, BitVec.toNat_ushiftRight, Nat.shiftRight_eq_div_pow,
    Nat.shiftLeft_eq]
  exact Nat.mod_eq_of_lt (Nat.lt_of_le_of_lt (Nat.div_mul_le_self _ _) address.isLt)

variable {bits : Nat} (address : BitVec w)

def networkRange (address : BitVec w) (bits : Nat) : Range w := ⟨network address bits, bits⟩

theorem contains_inside (narrow : w < 2 ^ 32) (most : bits ≤ w) (other : BitVec w) :
    ((networkRange address bits).contains other).overflow = false ∧
      (((networkRange address bits).contains other).value = true ↔
        Inside (network address bits) bits other) := by
  unfold Range.contains networkRange
  rw [Checked.subCount_eq most narrow]
  by_cases all : w - bits ≥ w
  · have zero : bits = 0 := by omega
    subst zero
    have bound := other.isLt
    simp [Inside, network_zero, bound]
  · have short : w - bits < w := Nat.lt_of_not_ge all
    simp only [Checked.bind_value, Checked.bind_overflow, all, if_false, Checked.shr_eq short,
      Checked.pure_value, Checked.pure_overflow, Bool.or_false, true_and, beq_iff_eq]
    unfold Inside
    have positive := Nat.two_pow_pos (w - bits)
    rw [← BitVec.toNat_inj, BitVec.toNat_ushiftRight, BitVec.toNat_ushiftRight,
      Nat.shiftRight_eq_div_pow, Nat.shiftRight_eq_div_pow, network_toNat,
      Nat.mul_div_cancel _ positive, Nat.div_eq_iff positive]
    omega

end Networks

section Usable

/-- A requested address that is an end of the network, and free. -/
def EndFree (a4 : BitVec 32) (p4 : Nat) (pool : IpPool) (req : Text) : Prop :=
  ∃ wanted, dotted.parse (cut '/' req).1 = some wanted ∧ dotted.text wanted ∉ pool.usedV4 ∧
    (wanted.toNat = (network a4 p4).toNat ∨
      wanted.toNat = (network a4 p4).toNat + 2 ^ (32 - p4) - 1)

/-- What is asked of the pool: the gateways and the addresses assigned for a
request lie in the networks, the IPv4 ones at neither end, and nothing overflows. -/
structure Assigns (v6Format : AddressFormat 128) (v4cidr v6cidr : Text) (a4 : BitVec 32) (p4 : Nat)
    (a6 : BitVec 128) (p6 : Nat) (pool : IpPool) (req : Text) : Prop where
  newFits : (IpPool.new v6Format v4cidr v6cidr).overflow = false
  v4Gateway : ∃ given, (IpPool.new v6Format v4cidr v6cidr).value.2.1 = dotted.text given ∧
    UsableHost (network a4 p4) p4 given
  v6Gateway : ∃ given, (IpPool.new v6Format v4cidr v6cidr).value.2.2 = v6Format.text given ∧
    Inside (network a6 p6) p6 given
  v4Fits : (pool.allocV4 req).overflow = false
  v4Usable : (pool.allocV4 req).value.1 = [] ∨
    ∃ given, (pool.allocV4 req).value.1 = dotted.text given ∧ UsableHost (network a4 p4) p4 given
  v6Fits : (pool.allocV6 v6Format req).overflow = false
  v6Usable : (pool.allocV6 v6Format req).value.1 = [] ∨
    ∃ given, (pool.allocV6 v6Format req).value.1 = v6Format.text given ∧
      Inside (network a6 p6) p6 given

variable {v6Format : AddressFormat 128} {v4cidr v6cidr req : Text} {a4 : BitVec 32} {p4 : Nat}
  {a6 : BitVec 128} {p6 : Nat} {pool : IpPool}

/-- A network of one or two addresses has no usable one. -/
theorem UsableHost.short {w bits : Nat} {base given : BitVec w} (usable : UsableHost base bits given) :
    bits + 2 ≤ w := by
  obtain ⟨⟨low, high⟩, first, last⟩ := usable
  by_contra long
  have pair : 2 ^ (w - bits) ≤ 2 ^ 1 := Nat.pow_le_pow_right (by decide) (by omega)
  omega

theorem endFree_granted (v4 : pool.v4 = networkRange a4 p4) (most : p4 ≤ 32)
    (endFree : EndFree a4 p4 pool req) : ∃ wanted, (pool.allocV4 req).value.1 = dotted.text wanted ∧
      ¬ UsableHost (network a4 p4) p4 wanted := by
  obtain ⟨wanted, read, free, ends⟩ := endFree
  have positive := Nat.two_pow_pos (32 - p4)
  have contained := (contains_inside a4 (by decide) most wanted).2.mpr ⟨by omega, by omega⟩
  have asked : (pool.v4.requested dotted pool.usedV4 req).value = some wanted := by
    rw [v4]
    simp [Range.requested, read, contained, free]
  refine ⟨wanted, ?_, fun usable => ?_⟩
  · change (pool.v4.alloc dotted pool.usedV4 req).value.1 = _
    simp only [Range.alloc, Checked.bind_value, asked]
    rfl
  · obtain ⟨-, first, last⟩ := usable
    omega

theorem new_eq (v4 : parseV4Cidr v4cidr = ⟨(network a4 p4, p4), false⟩)
    (v6 : parseV6Cidr v6Format.parse v6cidr = ⟨(network a6 p6, p6), false⟩) :
    IpPool.new v6Format v4cidr v6cidr =
      ⟨(IpPool.starting (networkRange a4 p4) (networkRange a6 p6)
          (dotted.text (network a4 p4 + 1#32)) (v6Format.text (network a6 p6 + 1#128)),
        dotted.text (network a4 p4 + 1#32), v6Format.text (network a6 p6 + 1#128)),
        (Checked.add (network a4 p4) 1#32).overflow ||
          (Checked.add (network a6 p6) 1#128).overflow⟩ := by
  unfold IpPool.new
  rw [v4, v6]
  change Checked.mk _ (false || (false || ((Checked.add (network a4 p4) 1#32).overflow ||
    ((Checked.add (network a6 p6) 1#128).overflow || false)))) = _
  rw [Bool.or_false]
  rfl

section Exact

variable (parsed4 : parseV4Cidr v4cidr = ⟨(network a4 p4, p4), false⟩)
  (parsed6 : parseV6Cidr v6Format.parse v6cidr = ⟨(network a6 p6, p6), false⟩)
  (v4 : pool.v4 = networkRange a4 p4)

include parsed4 parsed6 v4

theorem Assigns.short (assigns : Assigns v6Format v4cidr v6cidr a4 p4 a6 p6 pool req)
    (most6 : p6 ≤ 128) : p4 ≤ 30 ∧ p6 ≤ 127 ∧ ¬ EndFree a4 p4 pool req := by
  obtain ⟨gateway, -, usable⟩ := assigns.v4Gateway
  obtain ⟨other, text, low, high⟩ := assigns.v6Gateway
  rw [new_eq parsed4 parsed6] at text
  cases v6Format.text_injective text
  have short := usable.short
  refine ⟨by omega, ?_, fun endFree => ?_⟩
  · by_contra long
    obtain rfl : p6 = 128 := by omega
    have still : (network a6 128 + 1#128).toNat = (network a6 128).toNat := by omega
    exact absurd (BitVec.eq_of_toNat_eq still) (by simp)
  · obtain ⟨wanted, granted, unusable⟩ := endFree_granted v4 (by omega) endFree
    rcases assigns.v4Usable with none | ⟨given, same, usable⟩
    · exact dotted.text_ne_nil wanted (granted.symm.trans none)
    · exact unusable (dotted.text_injective (granted.symm.trans same) ▸ usable)

end Exact

instance decidableUsableHost {w : Nat} (base : BitVec w) (bits : Nat) (address : BitVec w) :
    Decidable (UsableHost base bits address) := by
  dsimp only [UsableHost, Inside]
  exact inferInstance

def sampleV6Cidr : Text := "fd00:1:2:3:4:5:6:0/112".toList

end Usable

end TlsVpn.Pool
