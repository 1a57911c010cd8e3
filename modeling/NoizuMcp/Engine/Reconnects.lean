import NoizuMcp.Engine.Sessions
import NoizuMcp.Foundation.Runs

/-!
# Reconnecting

A session of the engine owns a client process and two timers. When a connection fails it
closes the client and arms a retry; when the retry comes it connects again; while it is
connected it lists the upstream's surfaces anew on every refresh tick, on every `list_changed`
notification and on request.

A timer that has elapsed is a message in the mailbox, and cancelling it does not take the
message back. A list call ends with a listing or an error, or it exits because the client is
gone; then the session stops, and the clients, which are linked to it, stop with it. The idle
timer of a pass-through session is left to the outside, as a message that stops the session.

A retry is outstanding while its timer is armed or its message waits. `failed/2` arms one
without looking whether there is one already, and `relist/2` fails at once in a session that
has no client. So a refresh tick or a notification that comes after a failure arms a second
retry, which outlives the reconnection and then opens a second client. A handshake that takes
longer than `connect_timeout_ms` exits past the `Client.close/1` of `start_client/1`: its client
stays. In every run without these two there is one connection (`OneConnection`).
-/

set_option autoImplicit false

namespace NoizuMcp.Engine.Reconnects

open Foundation

/-! ## Messages -/

/-- The messages of the timers. -/
inductive Tick where
  | retry
  | refresh
  deriving DecidableEq

/-- What `list_changed` notifications name. -/
inductive Surface where
  | tools
  | prompts
  | resources
  deriving DecidableEq

/-- The messages of others: notifications, `refresh/1`, a call that goes to the upstream, the
end of an idle pass-through session, and those that only read the state. -/
inductive Outside where
  | listChanged (surface : Surface)
  | refresh
  | proxied
  | evict
  | other
  deriving DecidableEq

/-- What lies in the mailbox of a session. -/
inductive Letter where
  | tick (tick : Tick)
  | down (pid : Nat)
  | outside (message : Outside)
  deriving DecidableEq

/-- A session process with its mailbox, the timers it armed and the clients it started. -/
structure World where
  session : Session
  client : Option Nat := none
  monitor : Option Nat := none
  retryTimer : Option Nat := none
  refreshTimer : Option Nat := none
  clients : Processes Unit := .empty
  timers : Processes Tick := .empty
  mailbox : List Letter := []

/-- How an attempt to connect ends: the handshake fails or says whether the upstream speaks
`sync`, or `await_ready/2` exits with the client still there. -/
inductive Opening where
  | shaken (handshake : Option Bool)
  | hung
  deriving DecidableEq

/-- How list calls end. -/
inductive Listing where
  | listed (surfaces : Surfaces)
  | refused
  | exits

/-! ## Transitions -/

/-- `Process.cancel_timer/1` or `Client.close/1`, where there is one. -/
def ended {α : Type} (processes : Processes α) : Option Nat → Processes α
  | none => processes
  | some pid => processes.kill pid

/-- `Process.demonitor(ref, [:flush])`, where there is a monitor. -/
def flushed (mailbox : List Letter) : Option Nat → List Letter
  | none => mailbox
  | some pid => mailbox.filter (· != .down pid)

namespace World

/-- The connection is gone: surfaces are dropped and the reconnect is due later. -/
def failed (w : World) : World :=
  let timers := ended w.timers w.refreshTimer
  { w with
    session := w.session.failed
    clients := ended w.clients w.client
    client := none
    mailbox := flushed w.mailbox w.monitor
    monitor := none
    refreshTimer := none
    timers := timers.spawn .retry
    retryTimer := some timers.next }

/-- `succeed/1` with the surfaces that were listed. -/
def succeed (w : World) (surfaces : Surfaces) : World :=
  { w with
    session := { w.session with status := .ready, surfaces := surfaces }
    timers := ended w.timers w.retryTimer
    retryTimer := none }

/-- The next refresh; an older timer runs on. -/
def scheduleRefresh (w : World) : World :=
  { w with timers := w.timers.spawn .refresh, refreshTimer := some w.timers.next }

/-- A client is started and monitored. -/
def opened (w : World) (connection : Connection) : World :=
  { w with
    session := { w.session with client := some connection }
    clients := w.clients.spawn ()
    client := some w.clients.next
    monitor := some w.clients.next }

/-- `handle_continue(:catalog)`. -/
def catalog (w : World) : Listing → Option World
  | .listed surfaces => some (w.succeed surfaces).scheduleRefresh
  | .refused => some w.failed
  | .exits => none

/-- `handle_continue(:connect)`. -/
def connect (host : Host) (w : World) (opening : Opening) (listing : Listing) : Option World :=
  match opening with
  | .shaken handshake =>
    match w.session.openClient host handshake with
    | .error _ => some w.failed
    | .ok connection => (w.opened connection).catalog listing
  | .hung =>
    -- the credential and the transport come first
    match w.session.openClient host (some false) with
    | .error _ => some w.failed
    | .ok _ => some { w with clients := w.clients.spawn () }.failed

/-- The surfaces that a `relist/2` replaces. -/
def replaced (old new : Surfaces) : Surface → Surfaces
  | .tools => { old with tools := new.tools }
  | .prompts => { old with prompts := new.prompts }
  | .resources => { old with resources := new.resources, templates := new.templates }

/-- `relist/2` for some surfaces, and `failed/2` where it does not succeed. -/
def relist (w : World) (surfaces : List Surface) (listing : Listing) : Option World :=
  match w.client with
  | none => some w.failed
  | some _ =>
    match listing with
    | .listed new =>
      some { w with
        session := { w.session with
          surfaces := surfaces.foldl (fun old => replaced old new) w.session.surfaces } }
    | .refused => some w.failed
    | .exits => none

/-- Everything that an upstream offers is listed anew. -/
def relistAll (w : World) (listing : Listing) : Option World :=
  w.relist [.tools, .prompts, .resources] listing

/-- A message is handled; `none` when the session stops. -/
def handle (host : Host) (w : World) (opening : Opening) (listing : Listing) :
    Letter → Option World
  | .tick .retry => { w with retryTimer := none }.connect host opening listing
  | .tick .refresh => (w.relistAll listing).map scheduleRefresh
  | .down pid =>
    if w.monitor = some pid then some { w with client := none, monitor := none }.failed
    else some w
  | .outside (.listChanged surface) => w.relist [surface] listing
  | .outside .refresh =>
    match w.client with
    | none => some w
    | some _ => w.relistAll listing
  | .outside .proxied =>
    match w.client, listing with
    | some _, .exits => none
    | _, _ => some w
  | .outside .evict => none
  | .outside .other => some w

end World

/-! ## Runs -/

/-- What happens next: a message arrives, a timer elapses, a client ends, or the session
handles the first message. -/
inductive Event where
  | arrive (message : Outside)
  | elapse (timer : Nat)
  | die (pid : Nat)
  | handle (opening : Opening) (listing : Listing)

/-- One event: something arrives, a timer ends, or the session handles its next message. -/
def step (host : Host) (w : World) : Event → Option (World × Unit)
  | .arrive message => some ({ w with mailbox := w.mailbox ++ [.outside message] }, ())
  | .elapse timer =>
    match w.timers.get? timer with
    | none => some (w, ())
    | some tick =>
      some ({ w with timers := w.timers.kill timer, mailbox := w.mailbox ++ [.tick tick] }, ())
  | .die pid =>
    if w.monitor = some pid ∧ w.clients.get? pid = some () then
      some ({ w with clients := w.clients.kill pid, mailbox := w.mailbox ++ [.down pid] }, ())
    else some ({ w with clients := w.clients.kill pid }, ())
  | .handle opening listing =>
    match w.mailbox with
    | [] => some (w, ())
    | letter :: rest =>
      ({ w with mailbox := rest }.handle host opening listing letter).map fun w => (w, ())

/-- `init/1` and what it continues with. -/
def start (host : Host) (row : Row) (principal : Option Principal) (opening : Opening)
    (listing : Listing) : Option World :=
  World.connect host { session := { row := row, principal := principal } } opening listing

/-- The retries that are outstanding. -/
def World.retries (w : World) : Nat :=
  w.timers.count (· == .retry) + w.mailbox.count (.tick .retry)

/-- One connection and one retry at a time. -/
structure OneConnection (w : World) : Prop where
  alive : ∀ pid, (pid, ()) ∈ w.clients.live → w.client = some pid
  error : w.session.status = .error → w.retries = 1
  ready : w.session.status = .ready → w.retries = 0

/-- No handshake hangs, and a session without a client gets no refresh tick and no
`list_changed` notification. -/
def orderly (w : World) : Event → Bool
  | .handle opening _ =>
    match w.mailbox.head? with
    | some (.tick .retry) => opening != .hung
    | some (.tick .refresh) | some (.outside (.listChanged _)) => w.client.isSome
    | _ => true
  | _ => true

/-! ## Steps -/

variable {host : Host} {w w' : World} {opening : Opening} {listing : Listing}

theorem retries_eq_zero :
    w.retries = 0 ↔ w.timers.count (· == .retry) = 0 ∧ Letter.tick .retry ∉ w.mailbox := by
  rw [World.retries, Nat.add_eq_zero_iff, List.count_eq_zero]

theorem count_ended {processes : Processes Tick} {test : Tick → Bool} (pid : Option Nat)
    (h : processes.count test = 0) : (ended processes pid).count test = 0 := by
  cases pid with
  | none => exact h
  | some pid => exact Nat.le_zero.mp (h ▸ processes.count_kill_le test pid)

variable {letter : Letter} {rest : List Letter}

theorem mem_of_mem_flushed {mailbox : List Letter} {pid : Option Nat}
    (h : letter ∈ flushed mailbox pid) : letter ∈ mailbox := by
  cases pid with
  | none => exact h
  | some => exact List.mem_of_mem_filter h

/-- The clients whose end is announced are gone. -/
def Gone (w : World) : Prop :=
  ∀ pid, .down pid ∈ w.mailbox → w.clients.Stands pid fun _ => False

/-- What holds between two messages: the connection, and that the monitor is on the client and
a failed session has none. -/
structure Steady (w : World) : Prop extends OneConnection w where
  monitor : w.monitor = w.client
  started : w.session.status ≠ .connecting
  closed : w.session.status = .error → w.client = none
  gone : Gone w

theorem Steady.ready_of_client (h : Steady w) (hclient : w.client ≠ none) :
    w.session.status = .ready := by
  cases hstatus : w.session.status with
  | connecting => exact absurd hstatus h.started
  | ready => rfl
  | error => exact absurd (h.closed hstatus) hclient

/-- A step that keeps the status, the client and the number of retries. -/
theorem Steady.same (hw : Steady w) (hstatus : w'.session.status = w.session.status)
    (hclient : w'.client = w.client) (hmonitor : w'.monitor = w.monitor)
    (hretries : w'.retries = w.retries) (halive : w'.clients.live ⊆ w.clients.live)
    (hgone : Gone w') : Steady w' where
  alive pid hpid := hclient.trans (hw.alive pid (halive hpid))
  error h := hretries.trans (hw.error (hstatus.symm.trans h))
  ready h := hretries.trans (hw.ready (hstatus.symm.trans h))
  monitor := hmonitor.trans (hw.monitor.trans hclient.symm)
  started h := hw.started (hstatus.symm.trans h)
  closed h := hclient.trans (hw.closed (hstatus.symm.trans h))
  gone := hgone

/-- A failure with no retry outstanding arms one and leaves no client. -/
theorem steady_failed (halive : ∀ pid, (pid, ()) ∈ w.clients.live → w.client = some pid)
    (hretries : w.retries = 0) (hgone : Gone w) : Steady w.failed where
  alive pid hpid := by
    exfalso
    change (pid, ()) ∈ (ended w.clients w.client).live at hpid
    cases hclient : w.client with rw [hclient] at hpid
    | none => cases hclient.symm.trans (halive pid hpid)
    | some =>
      obtain ⟨hmem, hne⟩ := Processes.mem_kill.mp hpid
      cases hclient.symm.trans (halive pid hmem)
      exact hne rfl
  error _ := by
    obtain ⟨htimers, hmailbox⟩ := retries_eq_zero.mp hretries
    have hnone : (flushed w.mailbox w.monitor).count (.tick .retry) = 0 :=
      List.count_eq_zero.mpr fun hmem => hmailbox (mem_of_mem_flushed hmem)
    simp only [World.retries, World.failed, Processes.count_spawn, count_ended _ htimers, hnone]
    rfl
  ready hstatus := nomatch hstatus
  monitor := rfl
  started hstatus := nomatch hstatus
  closed _ := rfl
  gone pid hdown := by
    have hstands := hgone pid (mem_of_mem_flushed hdown)
    change (ended w.clients w.client).Stands pid _
    cases w.client with
    | none => exact hstands
    | some current => exact hstands.kill current

/-- A connection is opened where no client is alive and no retry is outstanding. -/
theorem steady_catalog {connection : Connection} (halive : w.clients.live = [])
    (hretries : w.retries = 0) (hgone : Gone w)
    (h : (w.opened connection).catalog listing = some w') :
    Steady w' := by
  have hopened : ∀ pid, (pid, ()) ∈ (w.opened connection).clients.live →
      (w.opened connection).client = some pid := by
    intro pid hpid
    rcases Processes.mem_spawn.mp hpid with hold | ⟨rfl, -⟩
    · rw [halive] at hold
      cases hold
    · rfl
  have hstands : Gone (w.opened connection) := fun pid hdown => (hgone pid hdown).spawn ()
  obtain ⟨htimers, hmailbox⟩ := retries_eq_zero.mp hretries
  cases listing with
  | listed =>
    cases h
    refine ⟨⟨hopened, fun hstatus => (nomatch hstatus), fun _ => ?_⟩, rfl,
      fun hstatus => (nomatch hstatus), fun hstatus => (nomatch hstatus), hstands⟩
    apply retries_eq_zero.mpr
    refine ⟨?_, hmailbox⟩
    simp only [World.scheduleRefresh, World.succeed, World.opened, Processes.count_spawn,
      count_ended _ htimers]
    rfl
  | refused =>
    cases h
    exact steady_failed hopened hretries hstands
  | exits => cases h

theorem steady_connect (halive : w.clients.live = []) (hretries : w.retries = 0)
    (hgone : Gone w) (hopening : opening ≠ .hung) (h : w.connect host opening listing = some w') :
    Steady w' := by
  cases opening with
  | hung => exact absurd rfl hopening
  | shaken =>
    unfold World.connect at h
    dsimp only at h
    split at h
    · cases h
      refine steady_failed (fun pid hpid => ?_) hretries hgone
      rw [halive] at hpid
      cases hpid
    · exact steady_catalog halive hretries hgone h

section

variable (hw : Steady w)

include hw

theorem Steady.relist (hclient : w.client ≠ none) {surfaces : List Surface}
    (h : w.relist surfaces listing = some w') : Steady w' := by
  have hready := hw.ready_of_client hclient
  unfold World.relist at h
  split at h
  case h_1 hnone => exact absurd hnone hclient
  case h_2 =>
    cases listing with
    | listed =>
      cases h
      exact ⟨⟨hw.alive, hw.error, hw.ready⟩, hw.monitor, hw.started, hw.closed, hw.gone⟩
    | refused =>
      cases h
      exact steady_failed hw.alive (hw.ready hready) hw.gone
    | exits => cases h

theorem Steady.scheduleRefresh : Steady w.scheduleRefresh := by
  have hretries : w.scheduleRefresh.retries = w.retries := by
    simp only [World.retries, World.scheduleRefresh, Processes.count_spawn]
    rfl
  exact hw.same rfl rfl rfl hretries (List.Subset.refl _) hw.gone

/-- A retry that is handled was the only one, and finds no client. -/
theorem Steady.taken (hmailbox : w.mailbox = .tick .retry :: rest) :
    w.clients.live = [] ∧ { w with mailbox := rest, retryTimer := none }.retries = 0 := by
  have hcount : w.retries = { w with mailbox := rest, retryTimer := none }.retries + 1 := by
    simp only [World.retries, hmailbox, List.count_cons_self]
    omega
  have herror : w.session.status = .error := by
    cases hstatus : w.session.status with
    | connecting => exact absurd hstatus hw.started
    | ready =>
      have hnone := hw.ready hstatus
      omega
    | error => rfl
  have hone := hw.error herror
  refine ⟨List.eq_nil_iff_forall_not_mem.mpr fun entry hentry => ?_, by omega⟩
  cases (hw.closed herror).symm.trans (hw.alive entry.1 hentry)

/-- The first message is taken out of the mailbox. -/
theorem Steady.read (hmailbox : w.mailbox = letter :: rest) (hletter : letter ≠ .tick .retry) :
    Steady { w with mailbox := rest } := by
  have hretries : { w with mailbox := rest }.retries = w.retries := by
    simp only [World.retries, hmailbox, List.count_cons_of_ne hletter]
  refine hw.same rfl rfl rfl hretries (List.Subset.refl _) fun pid hdown => hw.gone pid ?_
  rw [hmailbox]
  exact List.mem_cons_of_mem _ hdown

theorem Steady.handle (hmailbox : w.mailbox = letter :: rest)
    (horderly : orderly w (.handle opening listing) = true)
    (h : { w with mailbox := rest }.handle host opening listing letter = some w') : Steady w' := by
  simp only [orderly, hmailbox] at horderly
  cases letter with
  | tick tick =>
    cases tick with
    | retry =>
      obtain ⟨halive, hretries⟩ := hw.taken hmailbox
      have hgone : Gone { w with mailbox := rest, retryTimer := none } := by
        intro pid hdown
        apply hw.gone pid
        rw [hmailbox]
        exact List.mem_cons_of_mem _ hdown
      refine steady_connect ?_ hretries hgone (bne_iff_ne.mp horderly) h
      exact halive
    | refresh =>
      obtain ⟨w₁, hlist, rfl⟩ := Option.map_eq_some_iff.mp h
      have hread := hw.read hmailbox (by simp)
      exact (hread.relist (Option.isSome_iff_ne_none.mp horderly) hlist).scheduleRefresh
  | down pid =>
    have hread := hw.read hmailbox (by simp)
    by_cases hmonitor : w.monitor = some pid
    · have hfailed : some { w with mailbox := rest, client := none, monitor := none }.failed =
          some w' := (if_pos hmonitor).symm.trans h
      cases hfailed
      have hclient : w.client = some pid := hw.monitor.symm.trans hmonitor
      have hready := hw.ready_of_client (hclient ▸ Option.some_ne_none pid)
      refine steady_failed (fun other hother => ?_) (hread.ready hready) hread.gone
      -- The only client is the one that is gone.
      have hsame : pid = other := Option.some_inj.mp (hclient.symm.trans (hw.alive other hother))
      subst hsame
      have hdown : Letter.down pid ∈ w.mailbox := hmailbox ▸ List.mem_cons_self
      exact ((hw.gone pid hdown).holds () hother).elim
    · have hkept : some { w with mailbox := rest } = some w' := (if_neg hmonitor).symm.trans h
      cases hkept
      exact hread
  | outside message =>
    have hread := hw.read hmailbox (by simp)
    cases message with unfold World.handle at h
    | listChanged => exact hread.relist (Option.isSome_iff_ne_none.mp horderly) h
    | refresh =>
      dsimp only at h
      split at h
      case h_1 =>
        cases h
        exact hread
      case h_2 pid hclient => exact hread.relist (hclient ▸ Option.some_ne_none pid) h
    | proxied =>
      dsimp only at h
      split at h
      case h_1 => cases h
      case h_2 =>
        cases h
        exact hread
    | evict => cases h
    | other =>
      cases h
      exact hread

theorem Steady.step {event : Event} (horderly : orderly w event = true)
    (h : step host w event = some (w', ())) : Steady w' := by
  cases event with
  | arrive =>
    cases h
    refine hw.same rfl rfl rfl ?_ (List.Subset.refl _) fun pid hdown => hw.gone pid ?_
    · simp [World.retries, List.count_append]
    · simpa using hdown
  | elapse =>
    unfold Reconnects.step at h
    dsimp only at h
    split at h
    case h_1 =>
      cases h
      exact hw
    case h_2 tick htick =>
      cases h
      refine hw.same rfl rfl rfl ?_ (List.Subset.refl _) fun pid hdown => hw.gone pid ?_
      -- The retry is no longer armed but waits.
      · have hcount := Processes.count_kill (· == Tick.retry) (Processes.mem_of_get? htick)
        simp only [World.retries, List.count_append, List.count_singleton]
        cases tick with
        | retry | refresh => simp at hcount ⊢; omega
      · simpa using hdown
  | die pid =>
    have hkept : ∀ other, w.clients.Stands other (fun _ => False) →
        (w.clients.kill pid).Stands other fun _ => False := fun _ h => h.kill pid
    have hsub : (w.clients.kill pid).live ⊆ w.clients.live := List.filter_sublist.subset
    unfold Reconnects.step at h
    dsimp only at h
    split at h
    case isTrue hmonitored =>
      cases h
      refine hw.same rfl rfl rfl ?_ hsub fun other hdown => ?_
      · simp [World.retries, List.count_append]
      · rcases List.mem_append.mp hdown with hold | hnew
        · exact hkept other (hw.gone other hold)
        · cases List.mem_singleton.mp hnew
          refine ⟨w.clients.started _ (Processes.mem_of_get? hmonitored.2), fun _ hmem => ?_⟩
          exact (Processes.mem_kill.mp hmem).2 rfl
    case isFalse =>
      cases h
      exact hw.same rfl rfl rfl rfl hsub fun other hdown => hkept other (hw.gone other hdown)
  | handle =>
    unfold Reconnects.step at h
    dsimp only at h
    split at h
    case h_1 =>
      cases h
      exact hw
    case h_2 hmailbox =>
      obtain ⟨w₁, hhandle, heq⟩ := Option.map_eq_some_iff.mp h
      cases heq
      exact hw.handle hmailbox horderly hhandle

end

theorem steady_start {row : Row} {principal : Option Principal} (hopening : opening ≠ .hung)
    (h : start host row principal opening listing = some w) : Steady w :=
  steady_connect rfl rfl (fun _ hdown => absurd hdown List.not_mem_nil) hopening h

/-- Whatever arrives, elapses, ends or is answered: a session that starts without a hung
handshake and meets none, and that gets no refresh tick and no `list_changed` notification
while it has no client, has one connection at any time. -/
theorem one_connection {row : Row} {principal : Option Principal} {events : List Event}
    {outputs : List Unit} (hopening : opening ≠ .hung)
    (hstart : start host row principal opening listing = some w)
    (horderly : Runs.All (step host) (fun w event => orderly w event = true) w events)
    (h : Runs.run (step host) w events = some (w', outputs)) : OneConnection w' := by
  have hsteady : Steady w' :=
    Runs.run_invariant_of_all Steady (fun _ _ _ _ hw hevent hstep => hw.step hevent hstep)
      (steady_start hopening hstart) horderly h
  exact hsteady.toOneConnection

/-! An upstream without a credential. -/

def crm : Row := { name := "crm", transport := "http", url := some "https://crm.test/mcp" }

/-- The session has connected; its refresh timer is number 0. -/
def connected : World where
  session := { row := crm, status := .ready, client := some ⟨none, .http crm.url [], false⟩ }
  client := some 0
  monitor := some 0
  refreshTimer := some 0
  clients := Processes.spawn .empty ()
  timers := Processes.spawn .empty .refresh

def reconnects : Event := .handle (.shaken (some false)) (.listed {})

def refused : Event := .handle (.shaken none) .refused

theorem one_connection_after_loss :
    ∃ w, Runs.run (step {}) connected [.die 0, refused, .elapse 1, reconnects] =
        some (w, [(), (), (), ()]) ∧ w.client = some 1 ∧ OneConnection w := by
  have hstart : start {} crm none (.shaken (some false)) (.listed {}) = some connected := rfl
  have horderly : Runs.All (step {}) (fun w event => orderly w event = true) connected
      [.die 0, refused, .elapse 1, reconnects] := by decide
  exact ⟨_, rfl, rfl, one_connection (by decide) hstart horderly rfl⟩

/-- A periodic refresh fails, and the next tick comes before the session is back: two retries
are outstanding in status error, one in status ready, and it opens a second client beside the
first. A handshake that hangs leaves a client that the session does not know. -/
theorem retries_accumulate :
    (Runs.run (step {}) connected [.elapse 0, refused, .elapse 2, refused]).map
        (fun result => (result.1.session.status, result.1.retries)) = some (.error, 2) ∧
      (Runs.run (step {}) connected
          [.elapse 0, refused, .elapse 2, refused, .elapse 1, reconnects]).map
        (fun result => (result.1.session.status, result.1.retries)) = some (.ready, 1) ∧
      (Runs.run (step {}) connected
          [.elapse 0, refused, .elapse 2, refused, .elapse 1, reconnects, .elapse 3,
            reconnects]).map
        (fun result => (result.1.clients.live, result.1.client)) =
          some ([(1, ()), (2, ())], some 2) ∧
      (start {} crm none .hung .refused).map (fun w => (w.clients.live, w.client)) =
        some ([(0, ())], none) := by
  decide

end NoizuMcp.Engine.Reconnects
