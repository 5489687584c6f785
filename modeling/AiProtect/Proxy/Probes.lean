import AiProtect.Ldap.Connector
import AiProtect.Proxy.Supervisor

/-! # The health endpoint beside the entries

`health::serve` accepts probes for as long as the process lives, each in a task of its own
and no more than 64 at a time. The tasks read and write piece by piece, while the signal to
stop may come at any moment.

However these steps fall, a probe gets what `handle_connection` alone would make of its bytes
with the watch as it was when it was answered. So liveness is never in doubt, and readiness
is not taken back: after the first 503 there is no further 200.
-/

namespace AiProtect

open Places Runs

namespace Health

/-- `MAX_CONNECTIONS`. -/
def maxConnections : Nat := 64

/-- Where the task of a probe is: in the read loop, past it, in the middle of the response, or
    at its end, where it gives its permit back. -/
inductive ProbePhase where
  | reading (buf : List UInt8)
  | read (buf : List UInt8)
  | writing (rest : List UInt8)
  | ended
  deriving DecidableEq, Repr

/-- A probe, with what the reads have returned, what came of it, and what has been written. -/
structure Probe where
  phase : ProbePhase
  pieces : List (List UInt8)
  outcome : Option Outcome
  written : List UInt8

def Probe.accepted : Probe := ⟨.reading [], [], none, []⟩

/-- The permits a probe holds. -/
def Probe.holding (probe : Probe) : Nat := if probe.phase = .ended then 0 else 1

/-- An answer that was decided on: whose, to which path, with the watch at which value. -/
structure Answer where
  probe : Nat
  path : String
  shutdown : Bool
  response : String

structure Endpoint where
  supervisor : Supervisor
  available : Nat
  probes : List Probe
  answers : List Answer

/-- The steps of the endpoint. An accept that fails changes nothing, and a probe that finds no
    permit is closed at once. -/
inductive ProbeLabel where
  | supervisor (label : SupervisorLabel)
  | accept
  | arrive (probe : Nat) (piece : List UInt8)
  | close (probe : Nat)
  | fail (probe : Nat)
  | timeout (probe : Nat)
  | answer (probe : Nat)
  | write (probe : Nat) (count : Nat)

/-- What an outcome has to be written of. -/
def Outcome.bytes : Outcome → List UInt8
  | .answered response => asBytes response
  | .failed | .timedOut _ => []

namespace Endpoint

def start (limits : List Nat) : Endpoint := ⟨.start limits, maxConnections, [], []⟩

def accept (endpoint : Endpoint) : Endpoint :=
  if endpoint.available = 0 then endpoint
  else { endpoint with available := endpoint.available - 1, probes := endpoint.probes ++ [.accepted] }

/-- A read returns some bytes, as many as there is room for. -/
def arrive (endpoint : Endpoint) (index : Nat) (piece : List UInt8) : Endpoint :=
  match endpoint.probes[index]? with
  | some ⟨.reading buf, pieces, outcome, written⟩ =>
      if piece = [] then endpoint
      else
        let buf := buf ++ piece.take (bufLen - buf.length)
        let phase := if complete buf = true then .read buf else .reading buf
        { endpoint with probes := endpoint.probes.set index ⟨phase, pieces ++ [piece], outcome, written⟩ }
  | _ => endpoint

/-- A read finds the end of what the client sends. -/
def close (endpoint : Endpoint) (index : Nat) : Endpoint :=
  match endpoint.probes[index]? with
  | some ⟨.reading buf, pieces, outcome, written⟩ =>
      { endpoint with probes := endpoint.probes.set index ⟨.read buf, pieces, outcome, written⟩ }
  | _ => endpoint

/-- The task ends, and its permit is dropped. -/
def finish (endpoint : Endpoint) (index : Nat) (probe : Probe) : Endpoint :=
  { endpoint with
    available := endpoint.available + 1
    probes := endpoint.probes.set index { probe with phase := .ended } }

/-- An I/O error: that of a read is the outcome. -/
def fail (endpoint : Endpoint) (index : Nat) : Endpoint :=
  match endpoint.probes[index]? with
  | some probe =>
      match probe.phase with
      | .reading _ => endpoint.finish index { probe with outcome := some .failed }
      | .writing _ => endpoint.finish index probe
      | _ => endpoint
  | none => endpoint

/-- The deadline passes; it is that of the read loop only. -/
def timeout (endpoint : Endpoint) (index : Nat) : Endpoint :=
  match endpoint.probes[index]? with
  | some probe =>
      match probe.phase with
      | .reading _ => endpoint.finish index { probe with
          outcome := some (.timedOut s!"no request received within {debugDuration readTimeout}") }
      | _ => endpoint
  | none => endpoint

/-- The path selects the response, and the watch is borrowed for `/readyz`. -/
def answer (endpoint : Endpoint) (index : Nat) : Endpoint :=
  match endpoint.probes[index]? with
  | some probe =>
      match probe.phase with
      | .read buf =>
          let path := requestPath (fromUtf8Lossy buf)
          let shutdown := endpoint.supervisor.requested
          { endpoint with
            probes := endpoint.probes.set index { probe with
              phase := .writing (asBytes (respond path shutdown))
              outcome := some (.answered (respond path shutdown)) }
            answers := endpoint.answers ++ [⟨index, path, shutdown, respond path shutdown⟩] }
      | _ => endpoint
  | none => endpoint

/-- Some of the response is written; after the last byte the connection is shut down. -/
def write (endpoint : Endpoint) (index count : Nat) : Endpoint :=
  match endpoint.probes[index]? with
  | some probe =>
      match probe.phase with
      | .writing rest =>
          let next := { probe with phase := .writing (rest.drop count), written := probe.written ++ rest.take count }
          if rest.drop count = [] then endpoint.finish index next
          else { endpoint with probes := endpoint.probes.set index next }
      | _ => endpoint
  | none => endpoint

def step (endpoint : Endpoint) : ProbeLabel → Endpoint
  | .supervisor label => { endpoint with supervisor := endpoint.supervisor.step label }
  | .accept => endpoint.accept
  | .arrive probe piece => endpoint.arrive probe piece
  | .close probe => endpoint.close probe
  | .fail probe => endpoint.fail probe
  | .timeout probe => endpoint.timeout probe
  | .answer probe => endpoint.answer probe
  | .write probe count => endpoint.write probe count

section Changes

/-- What a task does while it goes on. -/
inductive Progress : Probe → Probe → Prop where
  | arrived {buf : List UInt8} {pieces : List (List UInt8)} {outcome : Option Outcome} {written piece : List UInt8}
      (sent : piece ≠ []) (more : complete (buf ++ piece.take (bufLen - buf.length)) = false) :
      Progress ⟨.reading buf, pieces, outcome, written⟩
        ⟨.reading (buf ++ piece.take (bufLen - buf.length)), pieces ++ [piece], outcome, written⟩
  | completed {buf : List UInt8} {pieces : List (List UInt8)} {outcome : Option Outcome}
      {written piece : List UInt8} (sent : piece ≠ [])
      (filled : complete (buf ++ piece.take (bufLen - buf.length)) = true) :
      Progress ⟨.reading buf, pieces, outcome, written⟩
        ⟨.read (buf ++ piece.take (bufLen - buf.length)), pieces ++ [piece], outcome, written⟩
  | closed {buf : List UInt8} {pieces : List (List UInt8)} {outcome : Option Outcome} {written : List UInt8} :
      Progress ⟨.reading buf, pieces, outcome, written⟩ ⟨.read buf, pieces, outcome, written⟩
  | wrote {rest : List UInt8} {pieces : List (List UInt8)} {outcome : Option Outcome} {written : List UInt8}
      (count : Nat) : Progress ⟨.writing rest, pieces, outcome, written⟩
        ⟨.writing (rest.drop count), pieces, outcome, written ++ rest.take count⟩

/-- What a task comes to before it ends. -/
inductive Ends : Probe → Probe → Prop where
  | failed {buf : List UInt8} {pieces : List (List UInt8)} {outcome : Option Outcome} {written : List UInt8} :
      Ends ⟨.reading buf, pieces, outcome, written⟩ ⟨.ended, pieces, some .failed, written⟩
  | timedOut {buf : List UInt8} {pieces : List (List UInt8)} {outcome : Option Outcome} {written : List UInt8} :
      Ends ⟨.reading buf, pieces, outcome, written⟩ ⟨.ended, pieces,
        some (.timedOut s!"no request received within {debugDuration readTimeout}"), written⟩
  | wrote {rest : List UInt8} {pieces : List (List UInt8)} {outcome : Option Outcome} {written : List UInt8}
      (count : Nat) : Ends ⟨.writing rest, pieces, outcome, written⟩
        ⟨.ended, pieces, outcome, written ++ rest.take count⟩

/-- Everything a step can come to. -/
inductive Change (endpoint : Endpoint) : Endpoint → Prop where
  | idle : Change endpoint endpoint
  | supervised (label : SupervisorLabel) :
      Change endpoint { endpoint with supervisor := endpoint.supervisor.step label }
  | accepted (free : endpoint.available ≠ 0) :
      Change endpoint { endpoint with
        available := endpoint.available - 1, probes := endpoint.probes ++ [.accepted] }
  | progressed {index : Nat} {probe next : Probe} (found : endpoint.probes[index]? = some probe)
      (progress : Progress probe next) :
      Change endpoint { endpoint with probes := endpoint.probes.set index next }
  | answered {index : Nat} {buf : List UInt8} {pieces : List (List UInt8)} {outcome : Option Outcome}
      {written : List UInt8} (found : endpoint.probes[index]? = some ⟨.read buf, pieces, outcome, written⟩)
      {path response : String} (asked : path = requestPath (fromUtf8Lossy buf))
      (selected : response = respond path endpoint.supervisor.requested) :
      Change endpoint { endpoint with
        probes := endpoint.probes.set index ⟨.writing (asBytes response), pieces, some (.answered response), written⟩
        answers := endpoint.answers ++ [⟨index, path, endpoint.supervisor.requested, response⟩] }
  | finished {index : Nat} {probe next : Probe} (found : endpoint.probes[index]? = some probe)
      (ends : Ends probe next) :
      Change endpoint { endpoint with
        available := endpoint.available + 1, probes := endpoint.probes.set index next }

theorem change (endpoint : Endpoint) (label : ProbeLabel) : Change endpoint (endpoint.step label) := by
  cases label with
  | supervisor label => exact .supervised label
  | accept =>
      simp only [step, accept]
      split
      · exact .idle
      · rename_i free
        exact .accepted free
  | arrive index piece =>
      simp only [step, arrive]
      split
      · rename_i buf pieces outcome written found
        split
        · exact .idle
        · rename_i sent
          cases filled : complete (buf ++ piece.take (bufLen - buf.length)) with
          | true =>
              simp only [if_true]
              exact .progressed found (.completed sent filled)
          | false =>
              simp only [Bool.false_eq_true, if_false]
              exact .progressed found (.arrived sent filled)
      · exact .idle
  | close index =>
      simp only [step, close]
      split
      · rename_i found
        exact .progressed found .closed
      · exact .idle
  | fail index =>
      simp only [step, fail, finish]
      split
      · rename_i probe found
        obtain ⟨phase, pieces, outcome, written⟩ := probe
        cases phase with
        | reading buf => exact .finished found .failed
        | writing rest =>
            have nothing := @Ends.wrote rest pieces outcome written 0
            rw [List.take_zero, List.append_nil] at nothing
            exact .finished found nothing
        | read _ | ended => exact .idle
      · exact .idle
  | timeout index =>
      simp only [step, timeout, finish]
      split
      · rename_i probe found
        obtain ⟨phase, pieces, outcome, written⟩ := probe
        cases phase with
        | reading buf => exact .finished found .timedOut
        | writing _ | read _ | ended => exact .idle
      · exact .idle
  | answer index =>
      simp only [step, answer]
      split
      · rename_i probe found
        obtain ⟨phase, pieces, outcome, written⟩ := probe
        cases phase with
        | read buf => exact .answered found rfl rfl
        | reading _ | writing _ | ended => exact .idle
      · exact .idle
  | write index count =>
      simp only [step, write, finish]
      split
      · rename_i probe found
        obtain ⟨phase, pieces, outcome, written⟩ := probe
        cases phase with
        | writing rest =>
            simp only
            split
            · exact .finished found (.wrote count)
            · exact .progressed found (.wrote count)
        | reading _ | read _ | ended => exact .idle
      · exact .idle

end Changes

section Alone

/-- The probe is where `handle_connection`, alone with its bytes, would be. -/
inductive Alone : Probe → Prop where
  | reading {buf : List UInt8} {pieces : List (List UInt8)} (nonempty : ∀ piece ∈ pieces, piece ≠ [])
      (more : complete buf = false) (room : buf.length ≤ bufLen)
      (loop : ∀ ending later, readLoop ending [] (pieces ++ later) = readLoop ending buf later) :
      Alone ⟨.reading buf, pieces, none, []⟩
  | read {buf : List UInt8} {pieces : List (List UInt8)} {ending : Ending}
      (nonempty : ∀ piece ∈ pieces, piece ≠ []) (loop : readLoop ending [] pieces = .done buf) :
      Alone ⟨.read buf, pieces, none, []⟩
  | writing {stream : Pieces UInt8} {ending : Ending} {shutdown : Bool} {response : String}
      {rest written : List UInt8}
      (answered : handleConnection ending stream shutdown readTimeout = .answered response)
      (whole : written ++ rest = asBytes response) :
      Alone ⟨.writing rest, stream.pieces, some (.answered response), written⟩
  | ended {stream : Pieces UInt8} {ending : Ending} {shutdown : Bool} {outcome : Outcome} {written : List UInt8}
      (result : handleConnection ending stream shutdown readTimeout = outcome)
      (begun : written <+: outcome.bytes) : Alone ⟨.ended, stream.pieces, some outcome, written⟩

theorem alone_accepted : Alone .accepted :=
  .reading (fun _ member => absurd member List.not_mem_nil) rfl (Nat.zero_le _) fun _ _ => rfl

/-- One more read brings the loop one turn further. -/
theorem readLoop_arrived {buf piece : List UInt8} {pieces : List (List UInt8)} (more : complete buf = false)
    (room : buf.length ≤ bufLen) (sent : piece ≠ [])
    (loop : ∀ ending later, readLoop ending [] (pieces ++ later) = readLoop ending buf later) (ending : Ending)
    (later : List (List UInt8)) :
    readLoop ending [] (pieces ++ [piece] ++ later) =
      readLoop ending (buf ++ piece.take (bufLen - buf.length)) later := by
  have short : buf.length < bufLen := by
    refine Nat.lt_of_le_of_ne room fun full => ?_
    rw [complete, decide_eq_true full, Bool.true_or] at more
    cases more
  rw [List.append_assoc, List.singleton_append, loop, readLoop_cons_of_incomplete more short sent]

theorem Alone.progress {probe next : Probe} (alone : Alone probe) (progress : Progress probe next) : Alone next := by
  cases progress with
  | @arrived buf pieces _ _ piece sent more =>
      cases alone with
      | reading nonempty unfilled room loop =>
          refine .reading ?_ more ?_ (readLoop_arrived unfilled room sent loop)
          · intro other member
            rcases List.mem_append.mp member with old | new
            · exact nonempty other old
            · rw [List.mem_singleton.mp new]
              exact sent
          · rw [List.length_append, List.length_take]
            omega
  | @completed buf pieces _ _ piece sent filled =>
      cases alone with
      | reading nonempty unfilled room loop =>
          have reached := readLoop_arrived unfilled room sent loop .closes []
          rw [List.append_nil, readLoop_of_complete filled] at reached
          refine .read ?_ reached
          intro other member
          rcases List.mem_append.mp member with old | new
          · exact nonempty other old
          · rw [List.mem_singleton.mp new]
            exact sent
  | @closed buf pieces =>
      cases alone with
      | reading nonempty unfilled room loop =>
          have reached := loop .closes []
          rw [List.append_nil, readLoop] at reached
          simp only [unfilled, Bool.false_eq_true, if_false] at reached
          exact .read nonempty reached
  | @wrote rest pieces outcome written count =>
      cases alone with
      | writing answered whole =>
          refine .writing answered ?_
          rw [List.append_assoc, List.take_append_drop, whole]

theorem Alone.ends {probe next : Probe} (alone : Alone probe) (ends : Ends probe next) : Alone next := by
  cases ends with
  | @failed buf pieces =>
      cases alone with
      | reading nonempty unfilled room loop =>
          have reached := loop .breaks []
          rw [List.append_nil, readLoop] at reached
          simp only [unfilled, Bool.false_eq_true, if_false] at reached
          refine @Alone.ended ⟨pieces, nonempty⟩ .breaks false _ _ ?_ List.nil_prefix
          simp only [handleConnection, reached]
  | @timedOut buf pieces =>
      cases alone with
      | reading nonempty unfilled room loop =>
          have reached := loop .stalls []
          rw [List.append_nil, readLoop] at reached
          simp only [unfilled, Bool.false_eq_true, if_false] at reached
          refine @Alone.ended ⟨pieces, nonempty⟩ .stalls false _ _ ?_ List.nil_prefix
          simp only [handleConnection, reached]
  | @wrote rest pieces outcome written count =>
      cases alone with
      | writing answered whole =>
          refine .ended answered ⟨rest.drop count, ?_⟩
          rw [List.append_assoc, List.take_append_drop, whole]
          rfl

/-- The response is that of the path, with the watch as it is. -/
theorem Alone.answered {buf : List UInt8} {pieces : List (List UInt8)} {outcome : Option Outcome}
    {written : List UInt8} (alone : Alone ⟨.read buf, pieces, outcome, written⟩) (shutdown : Bool) :
    Alone ⟨.writing (asBytes (respond (requestPath (fromUtf8Lossy buf)) shutdown)), pieces,
      some (.answered (respond (requestPath (fromUtf8Lossy buf)) shutdown)), written⟩ := by
  cases alone with
  | @read _ _ ending nonempty loop =>
      refine @Alone.writing ⟨pieces, nonempty⟩ ending shutdown _ _ _ ?_ rfl
      simp only [handleConnection, loop]

end Alone

section Runs

/-- The permits are all accounted for, every probe is served as if alone, and the answers follow
    the watch. -/
structure InOrder (endpoint : Endpoint) : Prop where
  permits : (endpoint.probes.map Probe.holding).sum + endpoint.available = maxConnections
  alone : ∀ probe ∈ endpoint.probes, Alone probe
  given : ∀ answer ∈ endpoint.answers, ∃ probe, endpoint.probes[answer.probe]? = some probe ∧
    probe.outcome = some (.answered answer.response)
  selected : ∀ answer ∈ endpoint.answers, answer.response = respond answer.path answer.shutdown ∧
    (answer.shutdown = true → endpoint.supervisor.requested = true)
  ordered : endpoint.answers.Pairwise fun first second => first.shutdown = true → second.shutdown = true

theorem Progress.kept {probe next : Probe} (progress : Progress probe next) :
    next.holding = probe.holding ∧ next.outcome = probe.outcome := by
  cases progress <;> exact ⟨rfl, rfl⟩

theorem Ends.kept {probe next : Probe} (ends : Ends probe next) (alone : Alone probe) :
    next.holding = 0 ∧ probe.holding = 1 ∧ ∀ outcome, probe.outcome = some outcome → next.outcome = some outcome := by
  cases ends with
  | failed | timedOut =>
      cases alone
      exact ⟨rfl, rfl, fun _ had => (by cases had)⟩
  | wrote count => exact ⟨rfl, rfl, fun _ had => had⟩

theorem requested_step (supervisor : Supervisor) (label : SupervisorLabel) (asked : supervisor.requested = true) :
    (supervisor.step label).requested = true := by
  simp only [Supervisor.step]
  split
  · exact asked
  · cases label with
    | signal => rfl
    | bound _ _ | serve _ _ => exact asked
    | hangup | load | exit | joinSignal | joinReload | join _ | joinNone =>
        simp only [Supervisor.advance, Supervisor.hangup, Supervisor.load, Supervisor.exit, Supervisor.join,
          Supervisor.joinNone]
        repeat' split
        all_goals exact asked

namespace InOrder

variable {endpoint : Endpoint}

/-- A probe goes on, and the others do not notice. -/
theorem replace (inOrder : InOrder endpoint) {index : Nat} {probe next : Probe}
    (found : endpoint.probes[index]? = some probe) (alone : Alone next)
    (kept : ∀ outcome, probe.outcome = some outcome → next.outcome = some outcome) {available : Nat}
    (permits : next.holding + available = probe.holding + endpoint.available) :
    InOrder { endpoint with available, probes := endpoint.probes.set index next } where
  permits := by
    have moved := sum_set Probe.holding next found
    have total := inOrder.permits
    simp only
    omega
  alone := by
    intro other member
    rcases List.mem_or_eq_of_mem_set member with old | rfl
    · exact inOrder.alone other old
    · exact alone
  given := by
    intro answer member
    obtain ⟨other, there, outcome⟩ := inOrder.given answer member
    by_cases here : index = answer.probe
    · subst here
      rw [found] at there
      cases there
      exact ⟨next, List.getElem?_set_self (List.getElem?_eq_some_iff.mp found).1, kept _ outcome⟩
    · exact ⟨other, by rw [List.getElem?_set_ne here, there], outcome⟩
  selected := inOrder.selected
  ordered := inOrder.ordered

end InOrder

theorem inOrder_start (limits : List Nat) : InOrder (start limits) where
  permits := Nat.zero_add _
  alone := fun _ member => absurd member List.not_mem_nil
  given := fun _ member => absurd member List.not_mem_nil
  selected := fun _ member => absurd member List.not_mem_nil
  ordered := .nil

theorem Change.inOrder {endpoint after : Endpoint} (change : Change endpoint after) (inOrder : InOrder endpoint) :
    InOrder after := by
  cases change with
  | idle => exact inOrder
  | supervised label =>
      refine { inOrder with selected := fun answer member => ?_ }
      obtain ⟨response, asked⟩ := inOrder.selected answer member
      exact ⟨response, fun shutdown => requested_step _ label (asked shutdown)⟩
  | accepted free =>
      refine { inOrder with permits := ?_, alone := ?_, given := ?_ }
      · have total := inOrder.permits
        rw [List.map_append, List.sum_append]
        simp only [List.map_cons, List.map_nil, List.sum_cons, List.sum_nil, Probe.holding, Probe.accepted, reduceCtorEq,
          if_false]
        omega
      · intro probe member
        rcases List.mem_append.mp member with old | new
        · exact inOrder.alone probe old
        · rw [List.mem_singleton.mp new]
          exact alone_accepted
      · intro answer member
        obtain ⟨probe, there, outcome⟩ := inOrder.given answer member
        refine ⟨probe, ?_, outcome⟩
        rw [List.getElem?_append_left (List.getElem?_eq_some_iff.mp there).1, there]
  | progressed found progress =>
      obtain ⟨holding, outcome⟩ := progress.kept
      refine inOrder.replace found ((inOrder.alone _ (List.mem_of_getElem? found)).progress progress) ?_ ?_
      · intro result had
        rw [outcome, had]
      · rw [holding]
  | @answered index buf pieces outcome written found path response asked selected =>
      subst asked selected
      have alone := inOrder.alone _ (List.mem_of_getElem? found)
      have inside := (List.getElem?_eq_some_iff.mp found).1
      have moved := inOrder.replace found (alone.answered endpoint.supervisor.requested)
        (fun _ had => (by cases alone; cases had)) rfl
      refine { moved with given := ?_, selected := ?_, ordered := ?_ }
      · intro answer member
        rcases List.mem_append.mp member with old | new
        · exact moved.given answer old
        · rw [List.mem_singleton.mp new]
          exact ⟨_, List.getElem?_set_self inside, rfl⟩
      · intro answer member
        rcases List.mem_append.mp member with old | new
        · exact inOrder.selected answer old
        · rw [List.mem_singleton.mp new]
          exact ⟨rfl, id⟩
      · rw [List.pairwise_append]
        refine ⟨inOrder.ordered, List.pairwise_singleton _ _, fun first member second last shutdown => ?_⟩
        rw [List.mem_singleton.mp last]
        exact (inOrder.selected first member).2 shutdown
  | finished found ends =>
      have alone := inOrder.alone _ (List.mem_of_getElem? found)
      obtain ⟨none_, one, outcome⟩ := ends.kept alone
      refine inOrder.replace found (alone.ends ends) outcome ?_
      rw [none_, one]
      omega

theorem always_inOrder (limits : List Nat) (labels : List ProbeLabel) :
    InOrder (labels.foldl step (start limits)) :=
  List.foldlRecOn labels step (inOrder_start limits) fun endpoint inOrder label _ =>
    (endpoint.change label).inOrder inOrder

end Runs

end Endpoint

end Health

end AiProtect
