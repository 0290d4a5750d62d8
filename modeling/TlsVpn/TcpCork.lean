import TlsVpn.Words
import TlsVpn.Runs

/-!
tcp_cork.rs: the last partial segment of a batch waits behind TCP_CORK until it has
grown to a full one or its time is over. Times are microseconds. Beside the cork a
trace keeps the calls of the socket option setter and the last moment at which the
cork was set or a full segment came together.
-/

namespace TlsVpn.Cork

open Words

section Source

def rttThresholdUs : Nat := 1000

def maxDelayUs : Nat := 150

def fallbackMss : Nat := 1440

def policyForRtt (rttUs : Nat) : Option Nat :=
  if rttUs > 0 ∧ rttUs < rttThresholdUs then none
  else
    let delayUs := if rttUs = 0 then maxDelayUs else min (rttUs / 8) maxDelayUs
    some (max delayUs 1)

structure TlsBatchCork where
  enabled : Bool
  corked : Bool
  mss : Nat
  progress : Nat
  delay : Nat
  deadline : Option Nat
  carryState : Option Bool
  positive : 0 < mss

def TlsBatchCork.bindCarryState (cork : TlsBatchCork) : TlsBatchCork :=
  { cork with carryState := some cork.corked }

def TlsBatchCork.publishCarry (cork : TlsBatchCork) (value : Bool) : TlsBatchCork :=
  { cork with carryState := cork.carryState.map fun _ => value }

def TlsBatchCork.disabled : TlsBatchCork where
  enabled := false
  corked := false
  mss := fallbackMss
  progress := 0
  delay := maxDelayUs
  deadline := none
  carryState := none
  positive := by decide

theorem mss_positive (measured : Nat) : 0 < if measured ≥ 256 then measured else fallbackMss := by
  split <;> [omega; decide]

def TlsBatchCork.new (rttUs measuredMss : Nat) : TlsBatchCork :=
  match policyForRtt rttUs with
  | none => .disabled
  | some delay =>
    { enabled := true
      corked := false
      mss := if measuredMss ≥ 256 then measuredMss else fallbackMss
      progress := 0
      delay := delay
      deadline := none
      carryState := none
      positive := mss_positive measuredMss }

structure SetterCall where
  value : Bool
  succeeded : Bool
  deriving DecidableEq

def TlsBatchCork.advance (cork : TlsBatchCork) (n now : Nat) : TlsBatchCork :=
  let progress := saturatingAdd cork.progress n
  if progress ≥ cork.mss then
    { cork with progress := progress % cork.mss, deadline := some (now + cork.delay) }
  else if cork.deadline.isNone then
    { cork with progress := progress, deadline := some (now + cork.delay) }
  else { cork with progress := progress }

def TlsBatchCork.beforeWriteWith (cork : TlsBatchCork) (n now : Nat) (setter : Bool → Bool) :
    TlsBatchCork × List SetterCall :=
  if !cork.enabled || n == 0 then (cork, [])
  else if cork.corked then (cork.advance n now, [])
  else if setter true then
    let corked := { cork with corked := true }.publishCarry true
    let fresh := { corked with progress := 0, deadline := some (now + cork.delay) }
    (fresh.advance n now, [⟨true, true⟩])
  else ({ cork with enabled := false }.publishCarry false, [⟨true, false⟩])

def TlsBatchCork.flushWith (cork : TlsBatchCork) (setter : Bool → Bool) :
    TlsBatchCork × List SetterCall :=
  if !cork.corked then (cork, [])
  else
    let asked := if setter false then cork else { cork with enabled := false }
    let uncorked := { asked with corked := false }.publishCarry false
    ({ uncorked with progress := 0, deadline := none }, [⟨false, setter false⟩])

def TlsBatchCork.maybeFlushWith (cork : TlsBatchCork) (now : Nat) (setter : Bool → Bool) :
    TlsBatchCork × List SetterCall :=
  if !cork.corked || cork.deadline.any (fun deadline => decide (now < deadline)) then (cork, [])
  else cork.flushWith setter

def TlsBatchCork.maybeFlush (cork : TlsBatchCork) (now : Nat) (setter : Bool → Bool) :
    TlsBatchCork × List SetterCall :=
  if !cork.enabled || !cork.corked then (cork, []) else cork.maybeFlushWith now setter

def TlsBatchCork.close (cork : TlsBatchCork) (setter : Bool → Bool) :
    TlsBatchCork × List SetterCall :=
  if cork.corked then cork.flushWith setter else (cork, [])

end Source

section Traces

inductive Call where
  | bindCarryState
  | beforeWrite (n now : Nat) (setter : Bool → Bool)
  | maybeFlush (now : Nat) (setter : Bool → Bool)
  | close (setter : Bool → Bool)

def TlsBatchCork.perform (cork : TlsBatchCork) : Call → TlsBatchCork × List SetterCall
  | .bindCarryState => (cork.bindCarryState, [])
  | .beforeWrite n now setter => cork.beforeWriteWith n now setter
  | .maybeFlush now setter => cork.maybeFlush now setter
  | .close setter => cork.close setter

def TlsBatchCork.moment (cork : TlsBatchCork) : Call → Option Nat
  | .beforeWrite n now setter =>
    if cork.enabled && n != 0 &&
        (if cork.corked then decide (saturatingAdd cork.progress n ≥ cork.mss) else setter true)
    then some now
    else none
  | _ => none

structure Trace where
  cork : TlsBatchCork
  calls : List SetterCall
  mark : Option Nat

def Trace.step (trace : Trace) (call : Call) : Trace where
  cork := (trace.cork.perform call).1
  calls := trace.calls ++ (trace.cork.perform call).2
  mark := (trace.cork.moment call).or trace.mark

def Trace.start (cork : TlsBatchCork) : Trace := ⟨cork, [], none⟩

structure Sound (delay mss : Nat) (cork : TlsBatchCork) (mark : Option Nat) : Prop where
  configured : cork.delay = delay ∧ cork.mss = mss
  published : ∀ carry, cork.carryState = some carry → carry = cork.corked
  held : cork.corked = true →
    cork.enabled = true ∧ cork.deadline.isSome = true ∧ cork.progress < mss
  timely : ∀ deadline, cork.deadline = some deadline →
    ∃ moment, mark = some moment ∧ deadline ≤ moment + delay
  idle : cork.corked = false → cork.deadline = none

/-- A sound cork, and a setter that is asked for on and off in turn until it fails. -/
structure Consistent (delay mss : Nat) (trace : Trace) : Prop where
  sound : Sound delay mss trace.cork trace.mark
  alternating : trace.calls.map SetterCall.value =
    (List.range trace.calls.length).map fun place => place % 2 == 0
  final : ∀ call ∈ trace.calls.dropLast, call.succeeded = true
  unfailed : trace.cork.enabled = true → ∀ call ∈ trace.calls, call.succeeded = true
  turn : trace.cork.enabled = true → trace.cork.corked = (trace.calls.length % 2 == 1)

variable {delay mss : Nat} {trace : Trace} {cork next : TlsBatchCork} {mark : Option Nat}

theorem advance_keeps (cork : TlsBatchCork) (n now : Nat) :
    (cork.advance n now).corked = cork.corked ∧ (cork.advance n now).enabled = cork.enabled ∧
      (cork.advance n now).carryState = cork.carryState ∧
      (cork.advance n now).delay = cork.delay ∧ (cork.advance n now).mss = cork.mss := by
  unfold TlsBatchCork.advance
  dsimp only
  split
  · exact ⟨rfl, rfl, rfl, rfl, rfl⟩
  · split <;> exact ⟨rfl, rfl, rfl, rfl, rfl⟩

theorem advance_progress (cork : TlsBatchCork) (n now : Nat) :
    (cork.advance n now).progress < cork.mss := by
  unfold TlsBatchCork.advance
  dsimp only
  split
  · exact Nat.mod_lt _ cork.positive
  · rename_i short
    split <;> exact Nat.not_le.mp short

theorem advance_deadline {deadline : Nat} (n now : Nat) (running : cork.deadline = some deadline) :
    (cork.advance n now).deadline =
      some (if saturatingAdd cork.progress n ≥ cork.mss then now + cork.delay else deadline) := by
  unfold TlsBatchCork.advance
  rw [running]
  dsimp only
  split <;> rfl

theorem Sound.advance {deadline n now : Nat} (configured : cork.delay = delay ∧ cork.mss = mss)
    (published : ∀ carry, cork.carryState = some carry → carry = true)
    (enabled : cork.enabled = true) (corked : cork.corked = true)
    (running : cork.deadline = some deadline)
    (timely : ∃ moment, mark = some moment ∧
      (if saturatingAdd cork.progress n ≥ cork.mss then now + cork.delay else deadline) ≤
        moment + delay) :
    Sound delay mss (cork.advance n now) mark := by
  obtain ⟨same, able, carry, sameDelay, sameMss⟩ := advance_keeps cork n now
  have moved := advance_deadline n now running
  refine ⟨⟨sameDelay.trans configured.1, sameMss.trans configured.2⟩, ?_, ?_, ?_, ?_⟩
  · rw [carry, same, corked]
    exact published
  · intro _
    refine ⟨able.trans enabled, by rw [moved]; rfl, ?_⟩
    rw [← configured.2]
    exact advance_progress cork n now
  · intro later set
    cases moved.symm.trans set
    exact timely
  · rw [same, corked]
    rintro ⟨⟩

theorem Sound.released (sound : Sound delay mss cork mark)
    (configured : next.delay = cork.delay ∧ next.mss = cork.mss) (corked : next.corked = false)
    (carry : next.carryState = cork.carryState.map fun _ => false) (stopped : next.deadline = none) :
    Sound delay mss next mark := by
  refine ⟨?_, ?_, ?_, ?_, fun _ => stopped⟩
  · exact ⟨configured.1.trans sound.configured.1, configured.2.trans sound.configured.2⟩
  · intro value set
    rw [carry] at set
    obtain ⟨_, _, same⟩ := Option.map_eq_some_iff.mp set
    exact same.symm.trans corked.symm
  · rw [corked]
    rintro ⟨⟩
  · rw [stopped]
    rintro deadline ⟨⟩

section

variable (consistent : Consistent delay mss trace)

include consistent

theorem Consistent.keeps (sound : Sound delay mss next mark)
    (enabled : next.enabled = trace.cork.enabled) (corked : next.corked = trace.cork.corked) :
    Consistent delay mss ⟨next, trace.calls, mark⟩ where
  sound := sound
  alternating := consistent.alternating
  final := consistent.final
  unfailed := enabled ▸ consistent.unfailed
  turn := by
    rw [enabled, corked]
    exact consistent.turn

theorem Consistent.asks {succeeded : Bool} (value : Bool) (enabled : trace.cork.enabled = true)
    (other : trace.cork.corked = !value) (sound : Sound delay mss next mark)
    (answered : next.enabled = true → succeeded = true ∧ next.corked = value) :
    Consistent delay mss ⟨next, trace.calls ++ [⟨value, succeeded⟩], mark⟩ := by
  have parity : value = (trace.calls.length % 2 == 0) ∧
      value = ((trace.calls.length + 1) % 2 == 1) := by
    rw [← Bool.not_not value, ← other, consistent.turn enabled, Nat.add_mod]
    rcases Nat.mod_two_eq_zero_or_one trace.calls.length with even | odd
    · rw [even]
      exact ⟨rfl, rfl⟩
    · rw [odd]
      exact ⟨rfl, rfl⟩
  refine ⟨sound, ?_, ?_, ?_, ?_⟩
  · rw [List.map_append, consistent.alternating, List.length_append, List.length_singleton,
      List.range_succ, List.map_append, parity.1]
    rfl
  · rw [List.dropLast_concat]
    exact consistent.unfailed enabled
  · intro stays call member
    rcases List.mem_append.mp member with earlier | last
    · exact consistent.unfailed enabled call earlier
    · rw [List.mem_singleton.mp last]
      exact (answered stays).1
  · intro stays
    rw [(answered stays).2, List.length_append]
    exact parity.2

theorem Consistent.flushed (setter : Bool → Bool) (corked : trace.cork.corked = true) :
    Consistent delay mss ⟨(trace.cork.flushWith setter).1,
      trace.calls ++ (trace.cork.flushWith setter).2, trace.mark⟩ := by
  obtain ⟨enabled, -, -⟩ := consistent.sound.held corked
  unfold TlsBatchCork.flushWith
  rw [if_neg (by rw [corked]; exact Bool.false_ne_true)]
  dsimp only
  cases answer : setter false with
  | true =>
    apply consistent.asks false enabled corked
    · exact consistent.sound.released ⟨rfl, rfl⟩ rfl rfl rfl
    · exact fun _ => ⟨rfl, rfl⟩
  | false =>
    apply consistent.asks false enabled corked
    · exact consistent.sound.released ⟨rfl, rfl⟩ rfl rfl rfl
    · rintro ⟨⟩

theorem Consistent.written (n now : Nat) (setter : Bool → Bool) :
    Consistent delay mss (trace.step (.beforeWrite n now setter)) := by
  obtain ⟨rfl, rfl⟩ := consistent.sound.configured
  simp only [Trace.step, TlsBatchCork.perform, TlsBatchCork.moment, TlsBatchCork.beforeWriteWith]
  by_cases skipped : (!trace.cork.enabled || n == 0) = true
  · rw [if_pos skipped, if_neg (by grind), List.append_nil]
    exact consistent.keeps consistent.sound rfl rfl
  rw [if_neg skipped]
  obtain ⟨enabled, nonempty⟩ : trace.cork.enabled = true ∧ (n != 0) = true := by grind
  rw [enabled, nonempty]
  cases corked : trace.cork.corked with
  | true =>
    obtain ⟨-, running, -⟩ := consistent.sound.held corked
    obtain ⟨deadline, running⟩ := Option.isSome_iff_exists.mp running
    obtain ⟨moment, marked, early⟩ := consistent.sound.timely deadline running
    obtain ⟨same, able, -⟩ := advance_keeps trace.cork n now
    rw [if_pos rfl, List.append_nil]
    apply consistent.keeps ?_ able same
    apply Sound.advance ⟨rfl, rfl⟩ (corked ▸ consistent.sound.published) enabled corked running
    by_cases full : saturatingAdd trace.cork.progress n ≥ trace.cork.mss
    · refine ⟨now, by simp [full], ?_⟩
      rw [if_pos full]
    · refine ⟨moment, by simp [full, marked], ?_⟩
      rw [if_neg full]
      exact early
  | false =>
    rw [if_neg Bool.false_ne_true]
    cases answer : setter true with
    | true =>
      rw [if_pos rfl]
      refine consistent.asks true enabled corked ?_ fun _ => ⟨rfl, ?_⟩
      · refine Sound.advance ⟨rfl, rfl⟩ ?_ rfl rfl rfl ⟨now, rfl, (ite_self _).le⟩
        intro value set
        obtain ⟨_, _, same⟩ := Option.map_eq_some_iff.mp set
        exact same.symm
      · exact (advance_keeps _ n now).1
    | false =>
      rw [if_neg Bool.false_ne_true]
      apply consistent.asks true enabled corked
      · exact consistent.sound.released ⟨rfl, rfl⟩ rfl rfl (consistent.sound.idle corked)
      · rintro ⟨⟩

theorem Consistent.step (call : Call) : Consistent delay mss (trace.step call) := by
  have still : Consistent delay mss ⟨trace.cork, trace.calls ++ [], trace.mark⟩ := by
    rw [List.append_nil]
    exact consistent
  cases call with
  | bindCarryState =>
    obtain ⟨configured, -, held, timely, idle⟩ := consistent.sound
    simp only [Trace.step, TlsBatchCork.perform, List.append_nil]
    refine consistent.keeps ⟨configured, ?_, held, timely, idle⟩ rfl rfl
    rintro carry ⟨⟩
    rfl
  | beforeWrite n now setter => exact consistent.written n now setter
  | maybeFlush now setter =>
    simp only [Trace.step, TlsBatchCork.perform, TlsBatchCork.maybeFlush,
      TlsBatchCork.maybeFlushWith]
    split
    · exact still
    · split
      · exact still
      · rename_i off _
        exact consistent.flushed setter (by grind)
  | close setter =>
    simp only [Trace.step, TlsBatchCork.perform, TlsBatchCork.close]
    split
    · rename_i corked
      exact consistent.flushed setter corked
    · exact still

end

theorem new_uncorked (rttUs measuredMss : Nat) :
    (TlsBatchCork.new rttUs measuredMss).corked = false ∧
      (TlsBatchCork.new rttUs measuredMss).deadline = none ∧
      (TlsBatchCork.new rttUs measuredMss).carryState = none := by
  unfold TlsBatchCork.new
  split <;> exact ⟨rfl, rfl, rfl⟩

theorem start_consistent (rttUs measuredMss : Nat) :
    Consistent (TlsBatchCork.new rttUs measuredMss).delay (TlsBatchCork.new rttUs measuredMss).mss
      (Trace.start (TlsBatchCork.new rttUs measuredMss)) := by
  obtain ⟨corked, deadline, carry⟩ := new_uncorked rttUs measuredMss
  refine ⟨⟨⟨rfl, rfl⟩, ?_, ?_, ?_, fun _ => deadline⟩, rfl, List.forall_mem_nil _,
    fun _ => List.forall_mem_nil _, fun _ => corked⟩
  · intro value set
    cases carry.symm.trans set
  · intro set
    cases corked.symm.trans set
  · intro value set
    cases deadline.symm.trans set

/-- Whatever is written when, and whatever the socket answers: the published flag is the cork's;
a set cork is enabled, has its deadline and less than a segment behind it; the deadline is no
later than the delay after the last moment that counts; and the setter is asked for on and off
in turn, and never again after a failure. -/
theorem cork_consistent (rttUs measuredMss : Nat) (calls : List Call) :
    Consistent (TlsBatchCork.new rttUs measuredMss).delay (TlsBatchCork.new rttUs measuredMss).mss
      (calls.foldl Trace.step (Trace.start (TlsBatchCork.new rttUs measuredMss))) := by
  apply Runs.invariant_run (Runs.total Trace.step) _ ?_ _ _ calls (Runs.run_total _ _ calls)
    (start_consistent rttUs measuredMss)
  rintro trace call _ consistent ⟨⟩
  exact consistent.step call

end Traces

end TlsVpn.Cork
