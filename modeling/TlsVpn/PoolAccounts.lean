import TlsVpn.Admission
import TlsVpn.Holdings
import TlsVpn.RegistryAccounts

/-!
The address pool against the sessions. A session holds its two addresses from the
allocation, while it is still under construction, until the last step of
`destroy_session`, however the steps of several workers interleave. The two sets
hold exactly the gateways and these addresses, and a MAC is bound only to an
address that a session with this MAC still holds. So a refused handshake undoes
what it did to the pool.
-/

namespace TlsVpn.Admission

open AddressText Pool Registry Holdings

section Claims

structure Claim where
  mac : Text
  v4 : Text
  v6 : Text
  deriving DecidableEq

def Host.claims (host : Host) : List Claim :=
  if host.stage = .gone then [] else [⟨host.mac, host.ipv4, host.ipv6⟩]

def CreationStage.addresses : CreationStage → Option (Text × Text)
  | .entered | .looked _ _ => none
  | .allocated v4 v6 | .secured v4 v6 | .ported v4 v6 | .resolved v4 v6 _ | .pinned v4 v6
  | .bound v4 v6 | .registered v4 v6 => some (v4, v6)

def Creation.claims (creation : Creation) : List Claim :=
  match creation.stage.addresses with
  | some (v4, v6) => [⟨creation.req.mac, v4, v6⟩]
  | none => []

def Server.claims (server : Server) : List Claim :=
  held Creation.claims server.creating.toList ++ held Host.claims server.hosts

structure Balanced (gwV4 gwV6 : Text) (pool : IpPool) (claims : List Claim) : Prop where
  v4 : Tally pool.usedV4 (gwV4 :: claims.map Claim.v4)
  v6 : Tally pool.usedV6 (gwV6 :: claims.map Claim.v6)
  bound : ∀ mac binding, pool.macToIp mac = some binding →
    ∃ claim ∈ claims, claim.mac = mac ∧ claim.v4 = binding.1

variable {gwV4 gwV6 : Text} {pool : IpPool} {claims others : List Claim} {claim : Claim}
variable {v4 v6 : Text}

theorem Balanced.perm (balanced : Balanced gwV4 gwV6 pool claims) (order : claims.Perm others) :
    Balanced gwV4 gwV6 pool others := by
  constructor
  · exact balanced.v4.perm ((order.map Claim.v4).cons gwV4)
  · exact balanced.v6.perm ((order.map Claim.v6).cons gwV6)
  · intro mac binding there
    obtain ⟨claim, member, same⟩ := balanced.bound mac binding there
    exact ⟨claim, order.mem_iff.mp member, same⟩

def taken (pool : IpPool) (v4 v6 : Text) : IpPool :=
  { pool with usedV4 := insert v4 pool.usedV4, usedV6 := insert v6 pool.usedV6 }

theorem Balanced.grant (balanced : Balanced gwV4 gwV6 pool claims) (mac : Text)
    (freeV4 : v4 ∉ pool.usedV4) (freeV6 : v6 ∉ pool.usedV6) :
    Balanced gwV4 gwV6 (taken pool v4 v6) (⟨mac, v4, v6⟩ :: claims) := by
  constructor
  · exact (balanced.v4.add freeV4).perm (List.Perm.swap ..)
  · exact (balanced.v6.add freeV6).perm (List.Perm.swap ..)
  · intro mac binding there
    obtain ⟨other, member, same⟩ := balanced.bound mac binding there
    exact ⟨other, List.mem_cons_of_mem _ member, same⟩

theorem Balanced.release (balanced : Balanced gwV4 gwV6 pool (claim :: claims)) :
    Balanced gwV4 gwV6 (pool.release claim.mac claim.v4 claim.v6) claims := by
  constructor
  · exact (balanced.v4.perm (List.Perm.swap ..)).remove
  · exact (balanced.v6.perm (List.Perm.swap ..)).remove
  · intro mac binding there
    simp only [IpPool.release] at there
    split at there
    · cases there
    · rename_i kept
      obtain ⟨other, member, sameMac, sameV4⟩ := balanced.bound mac binding there
      rcases List.mem_cons.mp member with rfl | member
      · -- a binding to the released address would have gone with it
        refine absurd ⟨sameMac.symm, ?_⟩ kept
        rw [sameMac, there, sameV4]
        exact beq_self_eq_true binding.1
      · exact ⟨other, member, sameMac, sameV4⟩

theorem Balanced.bind (balanced : Balanced gwV4 gwV6 pool claims) (member : claim ∈ claims) :
    Balanced gwV4 gwV6 (pool.bind claim.mac claim.v4 claim.v6) claims := by
  refine ⟨balanced.v4, balanced.v6, ?_⟩
  intro mac binding there
  simp only [IpPool.bind] at there
  split at there
  · rename_i same
    cases there
    exact ⟨claim, member, same.symm, rfl⟩
  · exact balanced.bound mac binding there

/-- Taking two free addresses and releasing them again changes nothing: no binding
points at an address that was free. -/
theorem Balanced.undo (balanced : Balanced gwV4 gwV6 pool claims) {mac : Text}
    (freeV4 : v4 ∉ pool.usedV4) (freeV6 : v6 ∉ pool.usedV6) :
    (taken pool v4 v6).release mac v4 v6 = pool := by
  have unbound : (pool.macToIp mac).any (fun binding => binding.1 == v4) = false := by
    cases there : pool.macToIp mac with
    | none => rfl
    | some binding =>
      obtain ⟨claim, member, -, same⟩ := balanced.bound mac binding there
      have used : binding.1 ∈ pool.usedV4 := by
        rw [balanced.v4.exact, ← same]
        exact List.mem_cons_of_mem _ (List.mem_map_of_mem member)
      exact beq_eq_false_iff_ne.mpr fun equal => freeV4 (equal ▸ used)
  obtain ⟨usedV4, usedV6, v4Range, v6Range, macToIp⟩ := pool
  unfold IpPool.release taken
  congr 1
  · exact Finset.erase_insert freeV4
  · exact Finset.erase_insert freeV6
  · funext key
    rw [if_neg]
    rintro ⟨-, same⟩
    rw [unbound] at same
    cases same

end Claims

section Allocation

variable {v6Format : AddressFormat 128}

def AllUsed {w : Nat} (format : AddressFormat w) (range : Range w) (used : Finset Text) : Prop :=
  ∀ address : BitVec w, (range.base + 1#w).toNat ≤ address.toNat →
    address.toNat < range.broadcast.value.toNat → offered address = true →
    format.text address ∈ used

inductive Allocated (v6Format : AddressFormat 128) (pool : IpPool) :
    IpPool × Except Refusal (Text × Text) → Prop where
  | v4Exhausted (all : AllUsed dotted pool.v4 pool.usedV4) :
      Allocated v6Format pool (pool, .error .v4Exhausted)
  | v6Exhausted (all : AllUsed v6Format pool.v6 pool.usedV6) :
      Allocated v6Format pool (pool, .error .v6Exhausted)
  | granted (v4 v6 : Text) (freeV4 : v4 ∉ pool.usedV4) (freeV6 : v6 ∉ pool.usedV6) :
      Allocated v6Format pool (taken pool v4 v6, .ok (v4, v6))

theorem alloc_answers {w : Nat} (format : AddressFormat w) (range : Range w) (used : Finset Text)
    (req : Text) :
    (∃ text, text ≠ [] ∧ text ∉ used ∧
      (range.alloc format used req).value = (text, insert text used)) ∨
    (AllUsed format range used ∧ (range.alloc format used req).value = ([], used)) := by
  have granted := alloc_granted format range used req
  generalize (range.alloc format used req).value = answer at granted
  cases granted with
  | requested address read inside free =>
    exact Or.inl ⟨_, format.text_ne_nil address, free, rfl⟩
  | scanned address after before onOffer free =>
    exact Or.inl ⟨_, format.text_ne_nil address, free, rfl⟩
  | exhausted all => exact Or.inr ⟨all, rfl⟩

theorem allocate_allocated (v6Format : AddressFormat 128) (pool : IpPool) (wanted : Text × Text) :
    Allocated v6Format pool (IpPool.allocate v6Format pool wanted) := by
  unfold IpPool.allocate
  rcases alloc_answers dotted pool.v4 pool.usedV4 wanted.1 with
    ⟨v4, some4, free4, answer4⟩ | ⟨all4, answer4⟩
  · have first : (pool.allocV4 wanted.1).value =
        (v4, { pool with usedV4 := insert v4 pool.usedV4 }) := by
      unfold IpPool.allocV4
      rw [Checked.bind_value, answer4]
      rfl
    have used4 : v4.isEmpty = false := List.isEmpty_eq_false_iff.mpr some4
    simp only [first, used4, Bool.false_eq_true, if_false]
    rcases alloc_answers v6Format pool.v6 pool.usedV6 wanted.2 with
      ⟨v6, some6, free6, answer6⟩ | ⟨all6, answer6⟩
    · have second : (({ pool with usedV4 := insert v4 pool.usedV4 } : IpPool).allocV6 v6Format
          wanted.2).value = (v6, taken pool v4 v6) := by
        unfold IpPool.allocV6
        rw [Checked.bind_value, answer6]
        rfl
      have used6 : v6.isEmpty = false := List.isEmpty_eq_false_iff.mpr some6
      simp only [second, used6, Bool.false_eq_true, if_false]
      exact .granted v4 v6 free4 free6
    · have second : (({ pool with usedV4 := insert v4 pool.usedV4 } : IpPool).allocV6 v6Format
          wanted.2).value = ([], { pool with usedV4 := insert v4 pool.usedV4 }) := by
        unfold IpPool.allocV6
        rw [Checked.bind_value, answer6]
        rfl
      simp only [second, List.isEmpty_nil, if_true, Finset.erase_insert free4]
      exact .v6Exhausted all6
  · have first : (pool.allocV4 wanted.1).value = ([], pool) := by
      unfold IpPool.allocV4
      rw [Checked.bind_value, answer4]
      rfl
    simp only [first, List.isEmpty_nil, if_true]
    exact .v4Exhausted all4

end Allocation

section Steps

variable {gate : Gate} {v6Format : AddressFormat 128}

def Server.Balanced (server : Server) : Prop :=
  Admission.Balanced server.gwV4 server.gwV6 server.pool server.claims

variable {server : Server} {index : Nat} (v4cidr v6cidr : Text)

theorem new_balanced (v6Format : AddressFormat 128) (v4cidr v6cidr : Text) :
    (Server.new v6Format v4cidr v6cidr).Balanced := by
  have single : ∀ text : Text, Tally {text} [text] := by
    intro text
    exact ⟨List.nodup_singleton text, fun other => by simp⟩
  refine ⟨single _, single _, ?_⟩
  rintro mac binding ⟨⟩

theorem claims_setHost {old new : Host} (there : server.hosts[index]? = some old)
    (same : new.claims = old.claims) : (server.setHost index new).claims.Perm server.claims := by
  apply List.Perm.append_left
  exact held_set_same Host.claims server.hosts index old new there same

theorem advance_balanced {creation : Creation} (balanced : server.Balanced)
    (there : server.creating = some creation) : (server.advance v6Format creation).Balanced := by
  obtain ⟨req, draws, stage⟩ := creation
  have claims : server.claims = (Creation.mk req draws stage).claims ++
      held Host.claims server.hosts := by
    unfold Server.claims
    rw [there]
    simp [held]
  unfold Server.Balanced at balanced
  rw [claims] at balanced
  cases stage with
  | entered => exact balanced
  | looked v4 v6 =>
    have allocated := allocate_allocated v6Format server.pool (v4, v6)
    simp only [Server.advance]
    generalize IpPool.allocate v6Format server.pool (v4, v6) = answer at allocated
    cases allocated with
    | v4Exhausted all => exact balanced
    | v6Exhausted all => exact balanced
    | granted v4 v6 freeV4 freeV6 =>
      have before : Admission.Balanced server.gwV4 server.gwV6 server.pool
          (held Host.claims server.hosts) := balanced
      exact before.grant req.mac freeV4 freeV6
  | allocated v4 v6 =>
    simp only [Server.advance]
    cases firstToken req.toHandshakeReq draws with
    | none =>
      have released : Admission.Balanced server.gwV4 server.gwV6
          (server.pool.release req.mac v4 v6) (held Host.claims server.hosts) :=
        Balanced.release balanced
      exact released
    | some token => exact balanced
  | secured v4 v6 => exact balanced
  | ported v4 v6 => exact balanced
  | resolved v4 v6 port => exact balanced
  | pinned v4 v6 =>
    unfold Server.Balanced Server.advance
    dsimp only [Server.bindMac]
    by_cases empty : req.mac.isEmpty = true
    · rw [if_pos empty]
      exact balanced
    · rw [if_neg empty]
      have bound : Admission.Balanced server.gwV4 server.gwV6 (server.pool.bind req.mac v4 v6)
          (⟨req.mac, v4, v6⟩ :: held Host.claims server.hosts) :=
        Balanced.bind balanced List.mem_cons_self
      exact bound
  | bound v4 v6 => exact balanced
  | registered v4 v6 =>
    apply balanced.perm
    change (⟨req.mac, v4, v6⟩ :: held Host.claims server.hosts).Perm
      (held Host.claims (server.hosts ++ [req.host v4 v6]))
    rw [held_append, held_singleton]
    exact (List.perm_append_singleton _ _).symm

theorem leave_balanced {next : Server} {host : Host} (balanced : server.Balanced)
    (there : server.hosts[index]? = some host) (left : server.leave index host = some next) :
    next.Balanced := by
  have keeps : ∀ stage, host.stage ≠ .gone → stage ≠ .gone →
      Admission.Balanced server.gwV4 server.gwV6 server.pool
        (server.setHost index { host with stage := stage }).claims := by
    intro stage live stays
    refine balanced.perm (claims_setHost there ?_).symm
    simp [Host.claims, live, stays]
  unfold Server.leave at left
  split at left
  · cases left
  · cases left
  · rename_i stage
    cases left
    exact keeps .unported (by rw [stage]; decide) (by decide)
  · rename_i stage
    cases left
    exact keeps .unpinned (by rw [stage]; decide) (by decide)
  · rename_i stage
    cases left
    exact keeps .unregistered (by rw [stage]; decide) (by decide)
  · rename_i stage
    cases left
    have exchange := held_set Host.claims server.hosts index host { host with stage := .gone } there
    have mine : host.claims = [⟨host.mac, host.ipv4, host.ipv6⟩] := by
      simp [Host.claims, stage]
    have none : ({ host with stage := .gone } : Host).claims = [] := rfl
    rw [mine, none, List.nil_append] at exchange
    have order : server.claims.Perm (⟨host.mac, host.ipv4, host.ipv6⟩ ::
        (server.setHost index { host with stage := .gone }).claims) := by
      refine (List.Perm.append_left _ exchange.symm).trans ?_
      exact List.perm_middle
    exact (balanced.perm order).release

theorem step_balanced (server : Server) (label : Label) (next : Server)
    (balanced : server.Balanced) (taken : server.step gate v6Format label = some next) :
    next.Balanced := by
  cases label with
  | handshake payload banned draws =>
    simp only [Server.step] at taken
    split at taken
    · cases taken
    · cases taken
      exact balanced
    · rename_i req free passes
      split at taken
      · cases taken
        exact balanced
      · cases taken
        unfold Server.Balanced Server.claims at balanced ⊢
        rw [free] at balanced
        exact balanced
  | advance =>
    obtain ⟨creation, there, rfl⟩ := Option.map_eq_some_iff.mp taken
    exact advance_balanced balanced there
  | destroy index =>
    simp only [Server.step] at taken
    split at taken
    · rename_i host free there
      split at taken
      · rename_i listed
        cases taken
        refine balanced.perm (claims_setHost there ?_).symm
        simp [Host.claims, listed]
      · cases taken
        exact balanced
    · cases taken
  | leave index =>
    obtain ⟨host, there, left⟩ := Option.bind_eq_some_iff.mp taken
    exact leave_balanced balanced there left

theorem run_balanced (labels : List Label) (server : Server)
    (reached : Runs.run (Server.step gate v6Format) (Server.new v6Format v4cidr v6cidr) labels =
      some server) : server.Balanced :=
  Runs.invariant_run (Server.step gate v6Format) Server.Balanced step_balanced _ server labels
    reached (new_balanced v6Format v4cidr v6cidr)

end Steps

section Samples

def sampleGate : Gate where
  settings := plainCore
  pskHash := ['h']
  minEnc := 0
  expectedId mac := "00000000-0000-0000-0000-".toList ++ mac.filter (· != ':')

def sampleRequest (last : UInt8) (ipv4 : Text) (sessionToken : Text) : Request where
  clientId := sampleGate.expectedId (macText [2, 0, 0, 0, 0, last])
  mac := macText [2, 0, 0, 0, 0, last]
  clientInstance := List.replicate 16 'i'
  encAlgo := 0
  fec := false
  fecGroup := 0
  brutalConns := 1
  sessionToken := sessionToken
  psk := ['h']
  encrypt := false
  protocolVersion := 3
  ipv4 := ipv4
  ipv6 := []

def noBans : Text → Bool := fun _ => false

end Samples

section Refusals

variable {gate : Gate} {v6Format : AddressFormat 128} {server : Server}
variable {pool after : IpPool} {wanted : Text × Text}

theorem allocate_refused {refusal : Refusal}
    (allocated : IpPool.allocate v6Format pool wanted = (after, .error refusal)) :
    after = pool ∧
      (refusal = .v4Exhausted ∧ AllUsed dotted pool.v4 pool.usedV4 ∨
        refusal = .v6Exhausted ∧ AllUsed v6Format pool.v6 pool.usedV6) := by
  have answer := allocate_allocated v6Format pool wanted
  rw [allocated] at answer
  cases answer with
  | v4Exhausted all => exact ⟨rfl, Or.inl ⟨rfl, all⟩⟩
  | v6Exhausted all => exact ⟨rfl, Or.inr ⟨rfl, all⟩⟩

theorem allocate_taken {v4 v6 : Text}
    (allocated : IpPool.allocate v6Format pool wanted = (after, .ok (v4, v6))) :
    after = taken pool v4 v6 ∧ v4 ∉ pool.usedV4 ∧ v6 ∉ pool.usedV6 := by
  have answer := allocate_allocated v6Format pool wanted
  rw [allocated] at answer
  cases answer with
  | granted v4 v6 freeV4 freeV6 => exact ⟨rfl, freeV4, freeV6⟩

/-- A refused handshake leaves no trace: in every state that any interleaving of
handshakes and destructions reaches, whatever the payload, the ban list and the
random source. -/
theorem refused_handshake_traceless (gate : Gate) (v6Format : AddressFormat 128)
    (v4cidr v6cidr : Text) (labels : List Label) (server : Server)
    (reached : Runs.run (Server.step gate v6Format) (Server.new v6Format v4cidr v6cidr) labels =
      some server)
    (payload : Option Request) (banned : Text → Bool) (draws : Draws) (refusal : Refusal)
    (refused : (server.handle gate v6Format payload banned draws).2 = .error refusal) :
    (server.handle gate v6Format payload banned draws).1 = server := by
  have balanced := run_balanced v4cidr v6cidr labels server reached
  have handled := handle_handled gate v6Format server payload banned draws
  generalize server.handle gate v6Format payload banned draws = result at handled refused
  cases handled with
  | screened other fails => rfl
  | existing req passes known => cases refused
  | limit req passes absent busy => rfl
  | exhausted req after other passes absent room allocated =>
    obtain ⟨rfl, -⟩ := allocate_refused allocated
    rfl
  | tokenless req after v4 v6 passes absent room allocated lacks =>
    obtain ⟨rfl, freeV4, freeV6⟩ := allocate_taken allocated
    change { server with pool := (taken server.pool v4 v6).release req.mac v4 v6 } = server
    rw [Balanced.undo balanced freeV4 freeV6]
  | created req after v4 v6 token passes absent room allocated fresh => cases refused

def halfDestroyed : List Label :=
  .handshake (some (sampleRequest 1 [] sampleToken)) noBans sampleDraws :: advances 9 ++ [.destroy 0]

def tokenlessDraws : Draws := { sampleDraws with token := none }

/-- The client comes back with a malformed token while the random source fails: its
old binding is read, two other addresses are taken and released again. -/
theorem refused_handshake_halfDestroyed : ∃ server,
    Runs.run (Server.step sampleGate colons)
        (Server.new colons "10.1.0.0/24".toList sampleV6Cidr) halfDestroyed = some server ∧
      server.hosts.map Host.stage = [.unlisted] ∧
      (server.handle sampleGate colons (some (sampleRequest 1 [] [])) noBans tokenlessDraws).2 =
        .error .noToken ∧
      (server.handle sampleGate colons (some (sampleRequest 1 [] [])) noBans tokenlessDraws).1 =
        server := by
  have seen : (Runs.run (Server.step sampleGate colons)
      (Server.new colons "10.1.0.0/24".toList sampleV6Cidr) halfDestroyed).map (fun server =>
        (server.hosts.map Host.stage,
          (server.handle sampleGate colons (some (sampleRequest 1 [] [])) noBans
            tokenlessDraws).2)) = some ([.unlisted], .error .noToken) := by decide +kernel
  obtain ⟨server, reached, view⟩ := Option.map_eq_some_iff.mp seen
  obtain ⟨stages, refused⟩ := Prod.mk.inj view
  exact ⟨server, reached, stages, refused,
    refused_handshake_traceless sampleGate colons "10.1.0.0/24".toList sampleV6Cidr halfDestroyed
      server reached (some (sampleRequest 1 [] [])) noBans tokenlessDraws .noToken refused⟩

end Refusals

section Sequences

variable {gate : Gate} {v6Format : AddressFormat 128} {server : Server}

inductive Op where
  | handshake (payload : Option Request) (banned : Text → Bool) (draws : Draws)
  | destroy (index : Nat)

def Server.perform (gate : Gate) (v6Format : AddressFormat 128) (server : Server) : Op → Server
  | .handshake payload banned draws => (server.handle gate v6Format payload banned draws).1
  | .destroy index => server.destroySession index

/-- Between two operations no session is half built or half destroyed. -/
structure Resting (start server : Server) : Prop where
  balanced : server.Balanced
  free : server.creating = none
  whole : ∀ host ∈ server.hosts, host.stage = .listed ∨ host.stage = .gone
  v4 : server.pool.v4 = start.pool.v4
  v6 : server.pool.v6 = start.pool.v6

variable {payload : Option Request} {banned : Text → Bool} {refusal : Refusal}

theorem new_resting (v6Format : AddressFormat 128) (v4cidr v6cidr : Text) :
    Resting (Server.new v6Format v4cidr v6cidr) (Server.new v6Format v4cidr v6cidr) := by
  refine ⟨new_balanced v6Format v4cidr v6cidr, rfl, ?_, rfl, rfl⟩
  rintro host ⟨⟩

theorem Resting.handle {start : Server} (resting : Resting start server)
    (payload : Option Request) (banned : Text → Bool) (draws : Draws) :
    Resting start (server.handle gate v6Format payload banned draws).1 := by
  have runs : ∃ count, Runs.run (Server.step gate v6Format) server
      (.handshake payload banned draws :: advances count) =
        some (server.handle gate v6Format payload banned draws).1 :=
    handle_runs payload banned draws resting.free
  obtain ⟨count, reached⟩ := runs
  have balanced := Runs.invariant_run (Server.step gate v6Format) Server.Balanced step_balanced
    server _ _ reached resting.balanced
  have handled := handle_handled gate v6Format server payload banned draws
  generalize server.handle gate v6Format payload banned draws = result at handled balanced
  obtain ⟨-, free, whole, v4Range, v6Range⟩ := resting
  cases handled with
  | screened other fails => exact ⟨balanced, free, whole, v4Range, v6Range⟩
  | existing req passes known => exact ⟨balanced, free, whole, v4Range, v6Range⟩
  | limit req passes absent busy => exact ⟨balanced, free, whole, v4Range, v6Range⟩
  | exhausted req after other passes absent room allocated =>
    obtain ⟨rfl, -⟩ := allocate_refused allocated
    exact ⟨balanced, free, whole, v4Range, v6Range⟩
  | tokenless req after v4 v6 passes absent room allocated lacks =>
    obtain ⟨rfl, -⟩ := allocate_taken allocated
    exact ⟨balanced, free, whole, v4Range, v6Range⟩
  | created req after v4 v6 token passes absent room allocated fresh =>
    obtain ⟨rfl, -⟩ := allocate_taken allocated
    have ranges : ({ server with pool := taken server.pool v4 v6 }.created req v4 v6).pool.v4 =
        server.pool.v4 ∧ ({ server with pool := taken server.pool v4 v6 }.created req v4
          v6).pool.v6 = server.pool.v6 := by
      unfold Server.created Server.bindMac
      by_cases empty : req.mac.isEmpty = true
      · simp only [empty, if_true]
        exact ⟨rfl, rfl⟩
      · simp only [empty]
        exact ⟨rfl, rfl⟩
    exact ⟨balanced, free, forall_mem_concat whole (Or.inl rfl), ranges.1.trans v4Range,
      ranges.2.trans v6Range⟩

theorem Resting.destroy {start : Server} (gate : Gate) (v6Format : AddressFormat 128)
    (resting : Resting start server) (index : Nat) :
    Resting start (server.destroySession index) := by
  cases there : server.hosts[index]? with
  | none =>
    rw [Server.destroySession, there]
    exact resting
  | some host =>
    by_cases listed : host.stage = .listed
    · have reached : Runs.run (Server.step gate v6Format) server (leaving index) =
          some (server.destroySession index) := destroySession_runs resting.free there listed
      have balanced := Runs.invariant_run (Server.step gate v6Format) Server.Balanced
        step_balanced server _ _ reached resting.balanced
      rw [Server.destroySession, there] at balanced ⊢
      simp only [listed, if_true] at balanced ⊢
      refine ⟨balanced, resting.free, ?_, resting.v4, resting.v6⟩
      exact forall_mem_set resting.whole index _ (Or.inr rfl)
    · rw [Server.destroySession, there]
      simp only [listed, if_false]
      exact resting

theorem perform_resting {start : Server} (gate : Gate) (v6Format : AddressFormat 128) (op : Op)
    (resting : Resting start server) : Resting start (server.perform gate v6Format op) := by
  cases op with
  | handshake payload banned draws => exact resting.handle payload banned draws
  | destroy index => exact resting.destroy gate v6Format index

/-- The used sets are the gateways and the addresses of the sessions in the map,
which are apart from each other and from the gateways. -/
structure Tracks (server : Server) : Prop where
  usedV4 : ∀ text, text ∈ server.pool.usedV4 ↔ text = server.gwV4 ∨
    ∃ host ∈ server.hosts, host.stage = .listed ∧ host.ipv4 = text
  usedV6 : ∀ text, text ∈ server.pool.usedV6 ↔ text = server.gwV6 ∨
    ∃ host ∈ server.hosts, host.stage = .listed ∧ host.ipv6 = text
  apart : ∀ (first second : Nat) (left right : Host), server.hosts[first]? = some left →
    server.hosts[second]? = some right → left.stage = .listed → right.stage = .listed →
    first ≠ second → left.ipv4 ≠ right.ipv4 ∧ left.ipv6 ≠ right.ipv6
  gateways : ∀ host ∈ server.hosts, host.stage = .listed →
    host.ipv4 ≠ server.gwV4 ∧ host.ipv6 ≠ server.gwV6

variable {start : Server}

theorem Resting.claims (resting : Resting start server) :
    server.claims = held Host.claims server.hosts := by
  unfold Server.claims
  rw [resting.free]
  rfl

theorem listed_claims {host : Host} (listed : host.stage = .listed) :
    host.claims = [⟨host.mac, host.ipv4, host.ipv6⟩] := by
  unfold Host.claims
  rw [if_neg (by rw [listed]; decide)]

theorem Resting.mem_claims (resting : Resting start server) (part : Claim → Text) (text : Text) :
    text ∈ server.claims.map part ↔ ∃ host ∈ server.hosts, host.stage = .listed ∧
      part ⟨host.mac, host.ipv4, host.ipv6⟩ = text := by
  rw [resting.claims]
  simp only [held, List.mem_map, List.mem_flatMap]
  constructor
  · rintro ⟨claim, ⟨host, member, owned⟩, rfl⟩
    rcases resting.whole host member with listed | gone
    · rw [listed_claims listed, List.mem_singleton] at owned
      exact ⟨host, member, listed, congrArg part owned.symm⟩
    · unfold Host.claims at owned
      rw [if_pos gone] at owned
      cases owned
  · rintro ⟨host, member, listed, rfl⟩
    exact ⟨_, ⟨host, member, by rw [listed_claims listed]; exact List.mem_singleton_self _⟩, rfl⟩

theorem Resting.parts_apart (resting : Resting start server) {part : Claim → Text}
    (nodup : (server.claims.map part).Nodup) {first second : Nat} {left right : Host}
    (leftAt : server.hosts[first]? = some left) (rightAt : server.hosts[second]? = some right)
    (leftListed : left.stage = .listed) (rightListed : right.stage = .listed)
    (different : first ≠ second) :
    part ⟨left.mac, left.ipv4, left.ipv6⟩ ≠ part ⟨right.mac, right.ipv4, right.ipv6⟩ := by
  intro same
  rw [resting.claims, held, List.map_flatMap] at nodup
  have owns : ∀ host : Host, host.stage = .listed →
      part ⟨host.mac, host.ipv4, host.ipv6⟩ ∈ host.claims.map part := by
    intro host listed
    rw [listed_claims listed]
    exact List.mem_singleton_self _
  have shared := owns right rightListed
  rw [← same] at shared
  exact different (held_apart nodup leftAt rightAt (owns left leftListed) shared)

theorem Resting.tracks (resting : Resting start server) : Tracks server := by
  have balanced : Admission.Balanced server.gwV4 server.gwV6 server.pool server.claims :=
    resting.balanced
  obtain ⟨outside4, nodup4⟩ := List.nodup_cons.mp balanced.v4.nodup
  obtain ⟨outside6, nodup6⟩ := List.nodup_cons.mp balanced.v6.nodup
  constructor
  · intro text
    rw [balanced.v4.exact, List.mem_cons, resting.mem_claims]
  · intro text
    rw [balanced.v6.exact, List.mem_cons, resting.mem_claims]
  · intro first second left right leftAt rightAt leftListed rightListed different
    exact ⟨resting.parts_apart nodup4 leftAt rightAt leftListed rightListed different,
      resting.parts_apart nodup6 leftAt rightAt leftListed rightListed different⟩
  · intro host member listed
    constructor
    · intro same
      exact outside4 ((resting.mem_claims Claim.v4 _).mpr ⟨host, member, listed, same⟩)
    · intro same
      exact outside6 ((resting.mem_claims Claim.v6 _).mpr ⟨host, member, listed, same⟩)

theorem screen_refusal (fails : gate.screen payload banned = .error refusal) :
    refusal ≠ .v4Exhausted ∧ refusal ≠ .v6Exhausted := by
  cases payload with
  | none =>
    cases fails
    decide
  | some raw =>
    simp only [Gate.screen] at fails
    cases struck : (gate.checks raw).find? Prod.fst with
    | some check =>
      rw [struck] at fails
      cases fails
      have member := List.mem_map_of_mem (f := Prod.snd) (List.mem_of_find?_eq_some struck)
      have all : ∀ refusal ∈ (gate.checks raw).map Prod.snd,
          refusal ≠ .v4Exhausted ∧ refusal ≠ .v6Exhausted := by
        simp only [Gate.checks, List.map_cons, List.map_nil]
        decide
      exact all check.2 member
    | none =>
      rw [struck] at fails
      cases canonical : canonicalMac raw.mac with
      | none =>
        rw [canonical] at fails
        cases fails
        decide
      | some mac =>
        rw [canonical] at fails
        simp only at fails
        split at fails
        · cases fails
          decide
        · split at fails
          · cases fails
            decide
          · cases fails

theorem exhausted_all_used {draws : Draws}
    (refused : (server.handle gate v6Format payload banned draws).2 = .error refusal) :
    (refusal = .v4Exhausted → AllUsed dotted server.pool.v4 server.pool.usedV4) ∧
      (refusal = .v6Exhausted → AllUsed v6Format server.pool.v6 server.pool.usedV6) := by
  have handled := handle_handled gate v6Format server payload banned draws
  generalize server.handle gate v6Format payload banned draws = result at handled refused
  cases handled with
  | screened other fails =>
    cases refused
    obtain ⟨not4, not6⟩ := screen_refusal fails
    exact ⟨fun same => absurd same not4, fun same => absurd same not6⟩
  | existing req passes known => cases refused
  | limit req passes absent busy =>
    cases refused
    constructor <;> rintro ⟨⟩
  | exhausted req after other passes absent room allocated =>
    cases refused
    rcases (allocate_refused allocated).2 with ⟨rfl, all⟩ | ⟨rfl, all⟩
    · exact ⟨fun _ => all, by rintro ⟨⟩⟩
    · exact ⟨by rintro ⟨⟩, fun _ => all⟩
  | tokenless req after v4 v6 passes absent room allocated lacks =>
    cases refused
    constructor <;> rintro ⟨⟩
  | created req after v4 v6 token passes absent room allocated fresh => cases refused

/-- After any sequence of handshakes and destructions, one after another, the pool
tracks the sessions, and a handshake is refused for want of an address only if
all the addresses that the scan of the configured range may hand out are used. -/
theorem pool_tracks_sessions (gate : Gate) (v6Format : AddressFormat 128) (v4cidr v6cidr : Text)
    (ops : List Op) :
    Tracks (ops.foldl (Server.perform gate v6Format) (Server.new v6Format v4cidr v6cidr)) ∧
    ∀ payload banned draws refusal,
      ((ops.foldl (Server.perform gate v6Format) (Server.new v6Format v4cidr v6cidr)).handle gate
        v6Format payload banned draws).2 = .error refusal →
      (refusal = .v4Exhausted → AllUsed dotted (Server.new v6Format v4cidr v6cidr).pool.v4
        (ops.foldl (Server.perform gate v6Format)
          (Server.new v6Format v4cidr v6cidr)).pool.usedV4) ∧
      (refusal = .v6Exhausted → AllUsed v6Format (Server.new v6Format v4cidr v6cidr).pool.v6
        (ops.foldl (Server.perform gate v6Format)
          (Server.new v6Format v4cidr v6cidr)).pool.usedV6) := by
  have resting : Resting (Server.new v6Format v4cidr v6cidr)
      (ops.foldl (Server.perform gate v6Format) (Server.new v6Format v4cidr v6cidr)) := by
    refine List.foldlRecOn ops (Server.perform gate v6Format)
      (new_resting v6Format v4cidr v6cidr) ?_
    intro server resting op _
    exact perform_resting gate v6Format op resting
  refine ⟨resting.tracks, ?_⟩
  intro payload banned draws refusal refused
  rw [← resting.v4, ← resting.v6]
  exact exhausted_all_used refused

def oneAddress : List Op :=
  [.handshake (some (sampleRequest 1 [] sampleToken)) noBans sampleDraws,
    .handshake (some (sampleRequest 2 "10.1.0.2".toList sampleToken)) noBans sampleDraws,
    .destroy 0,
    .handshake (some (sampleRequest 2 "10.1.0.2".toList sampleToken)) noBans sampleDraws]

def smallServer : Server := Server.new colons "10.1.0.0/30".toList sampleV6Cidr

theorem pool_tracks_one_address :
    ((oneAddress.foldl (Server.perform sampleGate colons) smallServer).hosts.map
      fun host => (host.stage, host.ipv4)) =
        [(.gone, "10.1.0.2".toList), (.listed, "10.1.0.2".toList)] ∧
    Tracks (oneAddress.foldl (Server.perform sampleGate colons) smallServer) :=
  ⟨by decide +kernel,
    (pool_tracks_sessions sampleGate colons "10.1.0.0/30".toList sampleV6Cidr oneAddress).1⟩

end Sequences

end TlsVpn.Admission
