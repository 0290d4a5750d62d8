import TlsVpn.Sealing
import TlsVpn.Reorder

/-!
One client session of server.rs: its epoch state behind a read-write lock, its
port, the physical connections, and the receive state they share when the
session has no RX actor. Workers run concurrently; each label is one atomic step
of one of them. The epoch write lock is held while `rotation` is present, so the
steps that take the lock, for reading or writing, are disabled then; steps that
work on what was read before go on.

A connection records the epoch its handshake read. Any connection may be on any
worker. Frames arrive already opened with the connection's receive cipher, and
how many connections count as active is left to the label wherever the code reads
that counter. `round`, `keyRound`, `txSalts`, `sealed` and `inserted` are logs
that no code reads. TLS, padding, rates and resume tokens are not modelled.
-/

namespace TlsVpn.Server

open Words XorBytes Fec Reorder Port

structure Config where
  encrypt : Bool
  fecEncK : Nat
  rxBypass : Bool
  /-- `InnerCipher::domain_for_algo` for the domain "fec". -/
  fecCipher : Salt → InnerCipher

def Config.fecIc (config : Config) (salt : Salt) : Option InnerCipher :=
  if config.encrypt then some (config.fecCipher salt) else none

def Config.icTx (config : Config) (salt : Salt) : Option Salt :=
  if config.encrypt then some salt else none

section State

/-- `SessionEpochState`. A cipher stands as the salt it was keyed with, the
decoder as its place among the session's decoders. -/
structure EpochState where
  instanceId : List Char
  epoch : Nat
  icTx : Option Salt
  fecDec : Option Nat
  keyRound : Nat

inductive Phase where
  | begun
  | decoderReset
  | reorderReset
  | dedupReset
  | counterReset
  | portReset
  deriving DecidableEq

structure Rotation where
  instanceId : List Char
  saltA : Salt
  saltB : Salt
  phase : Phase

structure Flush where
  icTx : Option Salt
  sendBuf : Nat
  pulled : Nat
  round : Nat

/-- A frame that passed the epoch check of `process_plain_frames`, with the
decoder that was read under the same lock. -/
structure Checked where
  seq : Nat
  data : Bytes
  fecDec : Option Nat

structure Inbox where
  checked : Option Checked
  batchFecDec : Option Nat
  fecData : List (Nat × Bytes)
  reorderInput : List (Nat × Bytes)
  fed : Bool

def Inbox.new : Inbox := ⟨none, none, [], [], false⟩

def Inbox.drained (inbox : Inbox) : Bool :=
  inbox.checked.isNone && inbox.fecData.isEmpty && inbox.reorderInput.isEmpty

structure Conn where
  sessionEpoch : Nat
  backend : Option Nat
  flush : Option Flush
  inbox : Inbox
  closed : Bool
  round : Nat

inductive Store where
  | reorder
  | dedup
  | fec
  deriving DecidableEq

/-- A frame of a connection of epoch `connEpoch` was put into a store while the
session's epoch was `sessionEpoch`. -/
structure Insertion where
  store : Store
  connEpoch : Nat
  sessionEpoch : Nat
  deriving DecidableEq

structure Session where
  port : AsyncPort
  epochState : EpochState
  rotation : Option Rotation
  conns : List Conn
  decoders : List FecDecoder
  reorderBuf : ReorderBuffer
  dedup : DeDuplicator
  delivered : Reorder.Delivered
  salts : List Salt
  txSalts : List Salt
  sealed : List Sealing
  inserted : List Insertion

/-- `attach_encoder`. -/
def attachEncoder (port : AsyncPort) (k : Nat) (ic : Option InnerCipher) : AsyncPort :=
  { port with encoder := some (FecEncoder.new k ic), encoderEnabled := true }

def Session.new (config : Config) (instanceId : List Char) (saltA saltB : Salt) : Session where
  port := if config.fecEncK > 0 then
      attachEncoder AsyncPort.new config.fecEncK (config.fecIc saltB)
    else AsyncPort.new
  epochState :=
    { instanceId := instanceId
      epoch := 1
      icTx := config.icTx saltB
      fecDec := if config.fecEncK > 0 then some 0 else none
      keyRound := 0 }
  rotation := none
  conns := []
  decoders := if config.fecEncK > 0 then
      [FecDecoder.new config.fecEncK (config.fecIc saltA)]
    else []
  reorderBuf := Reorder.new
  dedup := DeDuplicator.new
  delivered := []
  salts := [saltA, saltB]
  txSalts := [saltB]
  sealed := []
  inserted := []

def Session.setConn (session : Session) (index : Nat) (conn : Conn) : Session :=
  { session with conns := session.conns.set index conn }

end State

section Transmit

def Flush.full (flush : Flush) : Bool :=
  decide (flush.sendBuf ≥ streamTlsBatchSoftLimit ∨ flush.pulled ≥ 2048)

def Flush.budget (flush : Flush) : Nat :=
  maxTlsPlaintextRecord - streamPadAbsoluteLimit - flush.sendBuf

/-- The epoch check of `flush_outbound`, under the read lock. A mismatch closes
the connection. -/
def Session.flushBegin (session : Session) (index : Nat) (conn : Conn) : Session :=
  if session.epochState.epoch ≠ conn.sessionEpoch then
    session.setConn index { conn with closed := true }
  else
    session.setConn index
      { conn with flush := some ⟨session.epochState.icTx, 0, 0, session.port.round⟩ }

def Session.flushPop (session : Session) (index : Nat) (conn : Conn) (flush : Flush)
    (target : Nat) (backend : Backend) : Option Session :=
  if flush.full then none else
    match backend.queue.tryPopFitting flush.budget with
    | none => none
    | some (batch, rest) =>
      some { session with
        port := { session.port with
          backends := session.port.backends.set target { backend with queue := rest } }
        sealed := session.sealed ++ sealBatch flush.icTx batch.frames
        conns := session.conns.set index
          { conn with
            flush := some { flush with
              sendBuf := flush.sendBuf + (batch.frames.map (wireLength flush.icTx)).sum
              pulled := flush.pulled + batch.frames.length } } }

def Session.flushEnd (session : Session) (index : Nat) (conn : Conn) (flush : Flush)
    (backend : Backend) (failed : Bool) : Option Session :=
  if flush.full ∨ backend.queue.tryPopFitting flush.budget = none then
    some (session.setConn index { conn with flush := none, closed := conn.closed || failed })
  else none

end Transmit

section Receive

def Session.log (session : Session) (conn : Conn) (store : Store) : List Insertion :=
  session.inserted ++ [⟨store, conn.sessionEpoch, session.epochState.epoch⟩]

/-- The epoch check of `process_plain_frames` on one frame. A mismatch ends the
loop and closes the connection; what is already in the batch is still flushed. -/
def Session.receive (session : Session) (index : Nat) (conn : Conn) (seq : Nat) (data : Bytes) :
    Session :=
  if conn.sessionEpoch ≠ session.epochState.epoch then
    session.setConn index { conn with closed := true }
  else
    session.setConn index
      { conn with
        inbox := { conn.inbox with
          checked := some ⟨seq, data, session.epochState.fecDec⟩
          batchFecDec := conn.inbox.batchFecDec <|> session.epochState.fecDec } }

def Session.handleControl (session : Session) (index : Nat) (conn : Conn) (checked : Checked)
    (progress : Option Nat) : Session :=
  let idle := { conn.inbox with checked := none }
  match checked.fecDec with
  | none => session.setConn index { conn with inbox := idle, closed := true }
  | some place =>
    match session.decoders[place]? with
    | none => session.setConn index { conn with inbox := idle, closed := true }
    | some decoder =>
      let result := decoder.onControl checked.data progress progress
      let after := { session with
        decoders := session.decoders.set place result.1
        inserted := session.log conn .fec }
      match result.2 with
      | .error _ => after.setConn index { conn with inbox := idle, closed := true }
      | .ok out =>
        after.setConn index
          { conn with
            inbox := { idle with reorderInput := idle.reorderInput ++ out } }

/-- A data frame, after the lock was released. `single` is what the code reads
as `active_conns == 1`. -/
def Session.handleData (config : Config) (session : Session) (index : Nat) (conn : Conn)
    (checked : Checked) (single : Bool) : Session :=
  let frame := (checked.seq, checked.data)
  let batched := { conn.inbox with
    checked := none
    fecData := if checked.fecDec.isSome then conn.inbox.fecData ++ [frame]
      else conn.inbox.fecData }
  let kept := { batched with reorderInput := batched.reorderInput ++ [frame] }
  if checked.fecDec.isNone && single && config.rxBypass then
    session.setConn index { conn with inbox := kept }
  else
    let result := session.dedup.isDuplicate checked.seq
    { session with
      dedup := result.1
      inserted := session.log conn .dedup
      conns := session.conns.set index
        { conn with inbox := if result.2 then batched else kept } }

/-- The decoder half of `flush_server_rx_batch`. -/
def Session.feed (session : Session) (index : Nat) (conn : Conn) (progress : Option Nat) :
    Session :=
  let fed := { conn.inbox with fecData := [], fed := true }
  match conn.inbox.batchFecDec.bind fun place =>
      (session.decoders[place]?).map fun decoder => (place, decoder) with
  | some (place, decoder) =>
    if conn.inbox.fecData = [] then session.setConn index { conn with inbox := fed } else
      let result := decoder.onDataBatch
        (conn.inbox.fecData.map fun entry => (entry.1, entry.2, progress))
      { session with
        decoders := session.decoders.set place result.1
        inserted := session.log conn .fec
        conns := session.conns.set index
          { conn with inbox := { fed with reorderInput := fed.reorderInput ++ result.2 } } }
  | none => session.setConn index { conn with inbox := fed }

/-- The reorder half of `flush_server_rx_batch`. `last` is the call after the
loop, with which the function returns. -/
def Session.place (config : Config) (session : Session) (index : Nat) (conn : Conn)
    (clock : Nat → Nat) (single last : Bool) : Session :=
  let emptied := { conn.inbox with
    reorderInput := []
    fed := false
    batchFecDec := if last then none else conn.inbox.batchFecDec }
  if conn.inbox.reorderInput = [] then session.setConn index { conn with inbox := emptied } else
    let direct := if conn.inbox.batchFecDec.isNone && single && config.rxBypass then
        tryDirectBatch session.reorderBuf conn.inbox.reorderInput
      else none
    let result := direct.getD (insertAll session.reorderBuf clock conn.inbox.reorderInput)
    { session with
      reorderBuf := result.1
      delivered := session.delivered ++ result.2
      inserted := session.log conn .reorder
      conns := session.conns.set index { conn with inbox := emptied } }

end Receive

section Epochs

def exhaustedMark : List Char := "exhausted-".toList

def Session.reach (session : Session) (rotation : Rotation) (phase : Phase) : Session :=
  { session with rotation := some { rotation with phase := phase } }

/-- The rest of `reset_epoch` with the session's group size. -/
def Config.resetPort (config : Config) (port : AsyncPort) (saltB : Salt) : AsyncPort :=
  if config.fecEncK > 0 then port.resetFec config.fecEncK (config.fecIc saltB)
  else port.resetFec 0 none

/-- `rotate_session_epoch` up to its next step. The counter reset is the moment
from which the port numbers anew. -/
def Session.advance (config : Config) (session : Session) (rotation : Rotation) : Session :=
  match rotation.phase with
  | .begun =>
    { session with
      decoders := match session.epochState.fecDec with
        | none => session.decoders
        | some place => session.decoders.modify place FecDecoder.reset }.reach
      rotation .decoderReset
  | .decoderReset =>
    { session with reorderBuf := Reorder.reset session.reorderBuf }.reach rotation .reorderReset
  | .reorderReset => { session with dedup := session.dedup.reset }.reach rotation .dedupReset
  | .dedupReset =>
    { session with
      port := session.port.resetSeq
      txSalts := session.txSalts ++ [rotation.saltB] }.reach rotation .counterReset
  | .counterReset =>
    { session with port := config.resetPort session.port rotation.saltB }.reach rotation .portReset
  | .portReset =>
    { session with
      rotation := none
      decoders := if config.fecEncK > 0 then
          session.decoders ++ [FecDecoder.new config.fecEncK (config.fecIc rotation.saltA)]
        else session.decoders
      epochState :=
        { instanceId := rotation.instanceId
          epoch := saturatingAdd session.epochState.epoch 1
          icTx := config.icTx rotation.saltB
          fecDec := if config.fecEncK > 0 then some session.decoders.length else none
          keyRound := session.port.round } }

def Session.exhaust (session : Session) (suffix : List Char) : Session :=
  if exhaustedMark.isPrefixOf session.epochState.instanceId then session else
    { session with
      epochState := { session.epochState with
        instanceId := exhaustedMark ++ suffix
        epoch := saturatingAdd session.epochState.epoch 1 } }

end Epochs

section Steps

inductive Label where
  | write (label : WriteLabel)
  | singlePath
  | join
  | register (conn maxBatchFrames : Nat)
  | flushBegin (conn : Nat)
  | flushPop (conn : Nat)
  | flushEnd (conn : Nat) (failed : Bool)
  | receive (conn seq : Nat) (data : Bytes)
  | handle (conn : Nat) (single : Bool) (progress : Option Nat)
  | feed (conn : Nat) (progress : Option Nat)
  | place (conn : Nat) (clock : Nat → Nat) (single last : Bool)
  | timeout (now : Nat)
  | close (conn : Nat)
  | exhaust (suffix : List Char)
  | rotate (instanceId : List Char) (saltA saltB : Salt)
  | advance

def Session.step (config : Config) (session : Session) : Label → Option Session
  | .write label =>
    if isCall label then
      (session.port.step label).map fun port => { session with port := port }
    else none
  | .singlePath =>
    match session.rotation, session.epochState.fecDec with
    | none, some place =>
      some { session with
        decoders := session.decoders.modify place fun decoder =>
          decoder.setStaticSinglePath true }
    | _, _ => none
  | .join =>
    match session.rotation with
    | none =>
      some { session with
        conns := session.conns ++
          [⟨session.epochState.epoch, none, none, Inbox.new, false,
            session.epochState.keyRound⟩] }
    | some _ => none
  | .register index maxBatchFrames =>
    match session.conns[index]? with
    | some conn =>
      if conn.backend = none ∧ conn.closed = false then
        (session.port.step (.register 1024 maxBatchFrames)).map fun port =>
          { session with
            port := port
            conns := session.conns.set index
              { conn with backend := some session.port.backends.length } }
      else none
    | none => none
  | .flushBegin index =>
    match session.rotation, session.conns[index]? with
    | none, some conn =>
      if conn.backend.isSome ∧ conn.flush.isNone ∧ conn.closed = false then
        some (session.flushBegin index conn)
      else none
    | _, _ => none
  | .flushPop index =>
    match session.conns[index]? with
    | some conn =>
      match conn.flush, conn.backend with
      | some flush, some target =>
        match session.port.backends[target]? with
        | some backend => session.flushPop index conn flush target backend
        | none => none
      | _, _ => none
    | none => none
  | .flushEnd index failed =>
    match session.conns[index]? with
    | some conn =>
      match conn.flush, conn.backend with
      | some flush, some target =>
        match session.port.backends[target]? with
        | some backend => session.flushEnd index conn flush backend failed
        | none => none
      | _, _ => none
    | none => none
  | .receive index seq data =>
    match session.rotation, session.conns[index]? with
    | none, some conn =>
      if conn.backend.isSome ∧ conn.closed = false ∧ conn.inbox.checked.isNone ∧
          conn.inbox.fed = false ∧ data ≠ [] then
        some (session.receive index conn seq data)
      else none
    | _, _ => none
  | .handle index single progress =>
    match session.conns[index]? with
    | some conn =>
      match conn.inbox.checked with
      | some checked =>
        if checked.seq = 0 then some (session.handleControl index conn checked progress)
        else some (session.handleData config index conn checked single)
      | none => none
    | none => none
  | .feed index progress =>
    match session.conns[index]? with
    | some conn =>
      if conn.inbox.checked.isNone ∧ conn.inbox.fed = false then
        some (session.feed index conn progress)
      else none
    | none => none
  | .place index clock single last =>
    match session.conns[index]? with
    | some conn =>
      if conn.inbox.fed then some (session.place config index conn clock single last) else none
    | none => none
  | .timeout now =>
    let result := flushTimeoutInto session.reorderBuf now
    some { session with
      reorderBuf := result.1
      delivered := session.delivered ++ result.2 }
  | .close index =>
    match session.conns[index]? with
    | some conn =>
      if conn.flush.isNone ∧ conn.inbox.drained ∧ conn.inbox.fed = false then
        match conn.backend with
        | none => some (session.setConn index { conn with closed := true })
        | some target =>
          (session.port.step (.unregister target)).map fun port =>
            { session with
              port := port
              conns := session.conns.set index { conn with closed := true } }
      else none
    | none => none
  | .exhaust suffix =>
    match session.rotation with
    | none => if session.port.sequenceExhausted then some (session.exhaust suffix) else none
    | some _ => none
  | .rotate instanceId saltA saltB =>
    match session.rotation with
    | none =>
      -- the draws never repeat a salt
      if saltA ∉ session.salts ∧ saltB ∉ session.salts ∧ saltA ≠ saltB then
        some { session with
          rotation := some ⟨instanceId, saltA, saltB, .begun⟩
          salts := session.salts ++ [saltA, saltB] }
      else none
    | some _ => none
  | .advance =>
    match session.rotation with
    | some rotation => some (session.advance config rotation)
    | none => none

end Steps

section Inversion

inductive Stepped (config : Config) (session : Session) : Label → Session → Prop where
  | wrote (label : WriteLabel) (port : AsyncPort) (taken : session.port.step label = some port) :
      Stepped config session (.write label) { session with port := port }
  | marked (place : Nat) :
      Stepped config session .singlePath { session with
        decoders := session.decoders.modify place fun decoder =>
          decoder.setStaticSinglePath true }
  | joined (free : session.rotation = none) :
      Stepped config session .join { session with
        conns := session.conns ++
          [⟨session.epochState.epoch, none, none, Inbox.new, false,
            session.epochState.keyRound⟩] }
  | registered (index maxBatchFrames : Nat) (conn : Conn) (port : AsyncPort)
      (found : session.conns[index]? = some conn)
      (taken : session.port.step (.register 1024 maxBatchFrames) = some port) :
      Stepped config session (.register index maxBatchFrames)
        { session with
          port := port
          conns := session.conns.set index
            { conn with backend := some session.port.backends.length } }
  | began (index : Nat) (conn : Conn) (found : session.conns[index]? = some conn)
      (free : session.rotation = none) :
      Stepped config session (.flushBegin index) (session.flushBegin index conn)
  | popped (index : Nat) (conn : Conn) (flush : Flush) (target : Nat) (backend : Backend)
      (next : Session) (found : session.conns[index]? = some conn) (running : conn.flush = some flush)
      (mine : conn.backend = some target)
      (there : session.port.backends[target]? = some backend)
      (taken : session.flushPop index conn flush target backend = some next) :
      Stepped config session (.flushPop index) next
  | ended (index : Nat) (failed : Bool) (conn : Conn) (flush : Flush) (backend : Backend)
      (next : Session) (found : session.conns[index]? = some conn)
      (taken : session.flushEnd index conn flush backend failed = some next) :
      Stepped config session (.flushEnd index failed) next
  | received (index seq : Nat) (data : Bytes) (conn : Conn)
      (found : session.conns[index]? = some conn) :
      Stepped config session (.receive index seq data) (session.receive index conn seq data)
  | control (index : Nat) (single : Bool) (progress : Option Nat) (conn : Conn)
      (checked : Checked) (found : session.conns[index]? = some conn)
      (waiting : conn.inbox.checked = some checked) :
      Stepped config session (.handle index single progress)
        (session.handleControl index conn checked progress)
  | data (index : Nat) (single : Bool) (progress : Option Nat) (conn : Conn)
      (checked : Checked) (found : session.conns[index]? = some conn)
      (waiting : conn.inbox.checked = some checked) :
      Stepped config session (.handle index single progress)
        (session.handleData config index conn checked single)
  | fed (index : Nat) (progress : Option Nat) (conn : Conn)
      (found : session.conns[index]? = some conn) :
      Stepped config session (.feed index progress) (session.feed index conn progress)
  | placed (index : Nat) (clock : Nat → Nat) (single last : Bool) (conn : Conn)
      (found : session.conns[index]? = some conn) :
      Stepped config session (.place index clock single last)
        (session.place config index conn clock single last)
  | expired (now : Nat) :
      Stepped config session (.timeout now) { session with
        reorderBuf := (flushTimeoutInto session.reorderBuf now).1
        delivered := session.delivered ++ (flushTimeoutInto session.reorderBuf now).2 }
  | dropped (index : Nat) (conn : Conn) (found : session.conns[index]? = some conn) :
      Stepped config session (.close index) (session.setConn index { conn with closed := true })
  | closed (index : Nat) (conn : Conn) (target : Nat) (port : AsyncPort)
      (found : session.conns[index]? = some conn)
      (taken : session.port.step (.unregister target) = some port) :
      Stepped config session (.close index)
        { session with
          port := port
          conns := session.conns.set index { conn with closed := true } }
  | exhausted (suffix : List Char) :
      Stepped config session (.exhaust suffix) (session.exhaust suffix)
  | rotated (instanceId : List Char) (saltA saltB : Salt) (fresh : saltB ∉ session.salts) :
      Stepped config session (.rotate instanceId saltA saltB) { session with
        rotation := some ⟨instanceId, saltA, saltB, .begun⟩
        salts := session.salts ++ [saltA, saltB] }
  | advanced (rotation : Rotation) (writing : session.rotation = some rotation) :
      Stepped config session .advance (session.advance config rotation)

theorem step_stepped {config : Config} {session next : Session} (label : Label)
    (taken : session.step config label = some next) : Stepped config session label next := by
  cases label with
  | write label =>
    simp only [Session.step] at taken
    split at taken
    · obtain ⟨port, stepped, rfl⟩ := Option.map_eq_some_iff.mp taken
      exact .wrote label port stepped
    · cases taken
  | singlePath =>
    simp only [Session.step] at taken
    split at taken
    · cases taken
      exact .marked _
    · cases taken
  | join =>
    simp only [Session.step] at taken
    split at taken
    · rename_i free
      cases taken
      exact .joined free
    · cases taken
  | register index maxBatchFrames =>
    simp only [Session.step] at taken
    split at taken
    · rename_i conn found
      split at taken
      · obtain ⟨port, stepped, rfl⟩ := Option.map_eq_some_iff.mp taken
        exact .registered index maxBatchFrames conn port found stepped
      · cases taken
    · cases taken
  | flushBegin index =>
    simp only [Session.step] at taken
    split at taken
    · rename_i conn free found
      split at taken
      · cases taken
        exact .began index conn found free
      · cases taken
    · cases taken
  | flushPop index =>
    simp only [Session.step] at taken
    split at taken
    · rename_i conn found
      split at taken
      · rename_i flush target running mine
        split at taken
        · rename_i backend there
          exact .popped index conn flush target backend _ found running mine there taken
        · cases taken
      · cases taken
    · cases taken
  | flushEnd index failed =>
    simp only [Session.step] at taken
    split at taken
    · rename_i conn found
      split at taken
      · split at taken
        · exact .ended index failed conn _ _ _ found taken
        · cases taken
      · cases taken
    · cases taken
  | receive index seq data =>
    simp only [Session.step] at taken
    split at taken
    · rename_i conn free found
      split at taken
      · cases taken
        exact .received index seq data conn found
      · cases taken
    · cases taken
  | handle index single progress =>
    simp only [Session.step] at taken
    split at taken
    · rename_i conn found
      split at taken
      · rename_i checked waiting
        split at taken
        · cases taken
          exact .control index single progress conn checked found waiting
        · cases taken
          exact .data index single progress conn checked found waiting
      · cases taken
    · cases taken
  | feed index progress =>
    simp only [Session.step] at taken
    split at taken
    · rename_i conn found
      split at taken
      · cases taken
        exact .fed index progress conn found
      · cases taken
    · cases taken
  | place index clock single last =>
    simp only [Session.step] at taken
    split at taken
    · rename_i conn found
      split at taken
      · cases taken
        exact .placed index clock single last conn found
      · cases taken
    · cases taken
  | timeout now =>
    cases taken
    exact .expired now
  | close index =>
    simp only [Session.step] at taken
    split at taken
    · rename_i conn found
      split at taken
      · split at taken
        · cases taken
          exact .dropped index conn found
        · obtain ⟨port, stepped, rfl⟩ := Option.map_eq_some_iff.mp taken
          exact .closed index conn _ port found stepped
      · cases taken
    · cases taken
  | exhaust suffix =>
    simp only [Session.step] at taken
    split at taken
    · split at taken
      · cases taken
        exact .exhausted suffix
      · cases taken
    · cases taken
  | rotate instanceId saltA saltB =>
    simp only [Session.step] at taken
    split at taken
    · split at taken
      · rename_i fresh
        cases taken
        exact .rotated instanceId saltA saltB fresh.2.1
      · cases taken
    · cases taken
  | advance =>
    simp only [Session.step] at taken
    split at taken
    · rename_i rotation writing
      cases taken
      exact .advanced rotation writing
    · cases taken

end Inversion

end TlsVpn.Server
