import Mathlib.Data.List.Nodup
import Mathlib.Data.List.Pairwise
import NoizuMcp.Foundation.Service
import NoizuMcp.Protocol.JsonRpc
import NoizuMcp.Transport.Sink

/-!
# The response streams of one connection

One process handles the POST requests of a kept-alive connection, one after the other. For
each it registers as the stream of the request and writes what arrives in its mailbox into
the response. Neither the registration nor the mailbox ends with the request. A message
carries the number of the request it was routed for (`origin`), which no code looks at.

As long as every request ends with its final response, the messages of a request are sent
one after the other with the final response last, and no id is used twice in a session
(`Orderly`), the mailbox is empty between requests and each response holds messages of its
own request only (`written_for_own_request`).
-/

set_option autoImplicit false

namespace NoizuMcp.Transport.StreamableHttp.Post

open Foundation (Prog Pool Service Action)

open Protocol (Id Json Jason)

/-! ## The process -/

/-- The answer that ends the response to a request. -/
def finalResponse (J : Jason) (binary : J.Binary) (id : Id) : Bool :=
  match J.decode binary with
  | some (.obj fields) =>
    decide (fields.lookup "id" = some id.toJson) &&
      ((fields.lookup "result").isSome || (fields.lookup "error").isSome)
  | _ => false

/-- The key of a stream: the session and the id of the request. -/
abbrev Key (Session : Type) := Session × Id

/-- A registered process: the one looked at, or another one. -/
inductive Owner where
  | own
  | other
  deriving DecidableEq

/-- A message given to the sink of a session, and the number of the request of this process
for which it was routed, if it was for one. -/
structure Routed (Session : Type) (J : Jason) where
  session : Session
  message : Outgoing Id J.Binary
  origin : Option Nat := none

/-- The stream that the sink looks for. -/
def Routed.key {Session : Type} {J : Jason} (r : Routed Session J) : Option (Key Session) :=
  r.message.related.map fun id => (r.session, id)

/-- The message is the final response to the request it is related to. -/
def Routed.final {Session : Type} {J : Jason} (r : Routed Session J) : Bool :=
  match r.message.related with
  | some id => finalResponse J r.message.binary id
  | none => false

/-- How far a response has got. -/
inductive Response where
  | initializing
  | plain
  | sse
  deriving DecidableEq

/-- What the process is doing. -/
inductive Conn (Session : Type) where
  | idle
  | handling (number : Nat) (key : Key Session) (response : Response)

/-- The registered streams and the process: the requests it has taken on so far, its mailbox,
and what it has written into the response of which request. -/
structure World (Session : Type) (J : Jason) where
  registry : Key Session → Option Owner := fun _ => none
  requests : List (Key Session) := []
  conn : Conn Session := .idle
  mailbox : List (J.Binary × Routed Session J) := []
  written : List (Nat × J.Binary × Routed Session J) := []

/-- The steps of the process and of other processes. `closed` says that the client has
closed the connection before the chunk of this step. -/
inductive Move (Session : Type) where
  | accept (key : Key Session) (initializing : Bool)
  | receive (closed : Bool)
  | commit
  | keepalive (closed : Bool)
  | timeout
  | down
  | otherRegister (key : Key Session)
  | otherUnregister (key : Key Session)

section Processes

variable {Session : Type} [DecidableEq Session] {J : Jason}

/-- `Registry.register`, keys unique: a key that is taken stays with its process. -/
def register (registry : Key Session → Option Owner) (key : Key Session) (owner : Owner) :
    Key Session → Option Owner :=
  match registry key with
  | some _ => registry
  | none => fun k => if k = key then some owner else registry k

/-- `Registry.unregister`: only a key of the process itself. -/
def unregister (registry : Key Session → Option Owner) (key : Key Session) (owner : Owner) :
    Key Session → Option Owner :=
  fun k => if k = key ∧ registry k = some owner then none else registry k

namespace World

variable (w : World Session J)

def write (number : Nat) (mail : J.Binary × Routed Session J) : World Session J :=
  { w with written := w.written ++ [(number, mail)] }

/-- A chunk of an open stream; the stream ends if the client has gone. -/
def chunk (number : Nat) (key : Key Session) (mail : J.Binary × Routed Session J)
    (closed : Bool) : World Session J :=
  if closed then { w with conn := .idle }
  else { w.write number mail with conn := .handling number key .sse }

/-- What `handle_initialize/4` and `stream_request/6` do with a message. -/
def answer (number : Nat) (key : Key Session) (mail : J.Binary × Routed Session J)
    (closed : Bool) : Response → World Session J
  | .initializing =>
    { w.write number mail with conn := .idle, registry := unregister w.registry key .own }
  | .plain =>
    if finalResponse J mail.1 key.2 then { w.write number mail with conn := .idle }
    else w.chunk number key mail closed
  | .sse =>
    if finalResponse J mail.1 key.2 then
      if closed then { w with conn := .idle } else { w.write number mail with conn := .idle }
    else w.chunk number key mail closed

/-- The steps of the connection. -/
def move : Move Session → Option (World Session J)
  | .accept key initializing =>
    match w.conn with
    | .idle =>
      some { w with
        registry := register w.registry key .own
        requests := w.requests ++ [key]
        conn := .handling w.requests.length key (if initializing then .initializing else .plain) }
    | .handling _ _ _ => none
  | .receive closed =>
    match w.conn, w.mailbox with
    | .handling number key response, mail :: rest =>
      some (({ w with mailbox := rest }).answer number key mail closed response)
    | _, _ => none
  | .commit =>
    match w.conn with
    | .handling number key .plain => some { w with conn := .handling number key .sse }
    | _ => none
  | .keepalive closed =>
    match w.conn with
    | .handling _ _ .sse => some (if closed then { w with conn := .idle } else w)
    | _ => none
  | .timeout =>
    match w.conn with
    | .handling _ _ _ => some { w with conn := .idle }
    | .idle => none
  | .down =>
    match w.conn with
    | .handling _ _ .initializing => none
    | .handling _ _ _ => some { w with conn := .idle }
    | .idle => none
  | .otherRegister key => some { w with registry := register w.registry key .other }
  | .otherUnregister key => some { w with registry := unregister w.registry key .other }

/-- A step of the send of `r`. What the general stream and the event store answer is the
scheduler's choice. -/
def exec (r : Routed Session J) (choice : Bool × Nat) :
    (op : Op Id Owner J.Binary) → op.Res × World Session J
  | .lookupStream id => (w.registry (r.session, id), w)
  | .lookupGet => (choice.1, w)
  | .append _ => (choice.2, w)
  | .sendHttp .own binary => ((), { w with mailbox := w.mailbox ++ [(binary, r)] })
  | .sendHttp .other _ => ((), w)
  | .sendEvent _ _ => ((), w)

end World

/-- The sends of all sessions and the process. A message routed for a request of the process
is related to the id of that request, in its session. -/
def service : Service (Routed Session J) Unit (World Session J) (Bool × Nat) (Move Session)
    (Op Id Owner J.Binary) Op.Res where
  handler r := sendMessage r.message
  admits p r :=
    match r.origin with
    | none => true
    | some number => r.key.isSome && decide (p.world.requests[number]? = r.key)
  exec p i op choice := (p.threads[i]?).map fun t => p.world.exec t.1 choice op
  moves p m := p.world.move m

end Processes

/-- Messages that are being sent at the same time. -/
abbrev Sends (Session : Type) (J : Jason) :=
  Pool (Routed Session J) Unit (World Session J) (Op Id Owner J.Binary) Op.Res

abbrev Step (Session : Type) (J : Jason) := Action (Routed Session J) (Bool × Nat) (Move Session)

abbrev Thread (Session : Type) (J : Jason) := Routed Session J × Send Id Owner J.Binary Unit

/-- The send has returned. -/
def finished {Bin : Type} : Send Id Owner Bin Unit → Bool
  | .ret _ => true
  | .call _ _ => false

section Orderliness

variable {Session : Type} [DecidableEq Session] {J : Jason}

/-- A request ends only with its final response. Its messages are sent one after the other
and none after the final response, and no other message is related to its id. -/
def Orderly (p : Sends Session J) : Step Session J → Bool
  | .arrive r =>
    match r.origin with
    | none => p.world.requests.all fun key => decide (r.key ≠ some key)
    | some _ =>
      p.threads.all fun t => decide (t.1.origin ≠ r.origin) || (finished t.2 && !t.1.final)
  | .move (.accept key _) =>
    decide (key ∉ p.world.requests) && p.threads.all fun t => decide (t.1.key ≠ some key)
  | .move (.receive closed) =>
    match p.world.conn, p.world.mailbox with
    | .handling _ key response, mail :: _ =>
      finalResponse J mail.1 key.2 || (!closed && decide (response ≠ .initializing))
    | _, _ => true
  | .move (.keepalive closed) => !closed
  | .move .timeout => false
  | .move .down => false
  | _ => true

end Orderliness

/-! ## What holds of orderly runs -/

section Invariants

variable {Session : Type} {J : Jason}

/-- A message is related to the key of a request just if it was routed for that request. -/
structure Known (requests : List (Key Session)) (r : Routed Session J) : Prop where
  own : ∀ number, r.origin = some number →
    ∃ key, r.key = some key ∧ requests[number]? = some key
  only : ∀ number key, requests[number]? = some key → r.key = some key → r.origin = some number

/-- Where a send can stand; one that has found the process is related to one of its requests. -/
inductive Stage (requests : List (Key Session)) (r : Routed Session J) :
    Send Id Owner J.Binary Unit → Prop where
  | sendMessage : Stage requests r (sendMessage r.message)
  | unrelated : Stage requests r (unrelated r.message.binary)
  | direct (owner : Owner) (h : owner = .own → ∃ key ∈ requests, r.key = some key) :
      Stage requests r (related r.message.binary (some owner))
  | storing : Stage requests r (storing r.message.binary)
  | numbering : Stage requests r (numbering r.message.binary)
  | telling (event : Nat) : Stage requests r (perform (.sendEvent event r.message.binary))
  | done : Stage requests r (.ret ())

/-- Of two sends for one request the first has returned before the second has begun, and is
not the final response. -/
def InTurn (t t' : Thread Session J) : Prop :=
  t.1.origin = t'.1.origin → t.1.origin ≠ none → finished t.2 = true ∧ t.1.final = false

/-- The final response to the request has been sent. -/
def Closed (threads : List (Thread Session J)) (number : Nat) : Prop :=
  ∃ r, (r, Prog.ret ()) ∈ threads ∧ r.origin = some number ∧ r.final = true

/-- The mail was sent for the request, by a send that has returned. -/
structure SentFor (threads : List (Thread Session J)) (number : Nat)
    (mail : J.Binary × Routed Session J) : Prop where
  binary : mail.1 = mail.2.message.binary
  origin : mail.2.origin = some number
  sent : (mail.2, Prog.ret ()) ∈ threads

/-- The mailbox holds mail for the current request, the final response last. -/
def Mailed (threads : List (Thread Session J)) (mailbox : List (J.Binary × Routed Session J)) :
    Conn Session → Prop
  | .idle => mailbox = []
  | .handling number _ _ =>
    (∀ mail ∈ mailbox, SentFor threads number mail) ∧
      mailbox.Pairwise fun mail _ => mail.2.final = false

/-- The process is handling the request with this number. -/
def Conn.serving (conn : Conn Session) (number : Nat) : Bool :=
  match conn with
  | .idle => false
  | .handling current _ _ => decide (current = number)

/-- The invariant of orderly runs. -/
structure Isolated (p : Sends Session J) : Prop where
  registered : ∀ key, p.world.registry key = some .own → key ∈ p.world.requests
  distinct : p.world.requests.Nodup
  current : ∀ number key response, p.world.conn = .handling number key response →
    p.world.requests[number]? = some key
  known : ∀ t ∈ p.threads, Known p.world.requests t.1
  stages : ∀ t ∈ p.threads, Stage p.world.requests t.1 t.2
  ordered : p.threads.Pairwise InTurn
  past : ∀ number, number < p.world.requests.length → p.world.conn.serving number = false →
    Closed p.threads number
  mailed : Mailed p.threads p.world.mailbox p.world.conn
  written : ∀ entry ∈ p.world.written, SentFor p.threads entry.1 entry.2

end Invariants

section Lists

variable {α : Type} {R : α → α → Prop} {l : List α} {a b c : α} {i : Nat}

/-- One element may be replaced if the relation does not mind. -/
theorem pairwise_set (h : l.Pairwise R) (hi : l[i]? = some a) (hbefore : ∀ x, R x a → R x b)
    (hafter : ∀ x, R a x → R b x) : (l.set i b).Pairwise R := by
  induction l generalizing i with
  | nil => cases hi
  | cons first _ ih =>
    obtain ⟨hfirst, hrest⟩ := List.pairwise_cons.mp h
    cases i with
    | zero =>
      cases hi
      exact List.pairwise_cons.mpr ⟨fun x hx => hafter x (hfirst x hx), hrest⟩
    | succ =>
      refine List.pairwise_cons.mpr ⟨fun x hx => ?_, ih hrest hi⟩
      rcases List.mem_or_eq_of_mem_set hx with hold | rfl
      · exact hfirst x hold
      · exact hbefore first (hfirst a (List.mem_of_getElem? hi))

/-- Two elements are one, or related one way round. -/
theorem rel_of_pairwise (h : l.Pairwise R) (ha : a ∈ l) (hb : b ∈ l) : a = b ∨ R a b ∨ R b a := by
  have : Std.Symm fun x y => R x y ∨ R y x := ⟨fun _ _ => Or.symm⟩
  have heither : l.Pairwise fun x y => R x y ∨ R y x := h.imp .inl
  by_cases hab : a = b
  · exact .inl hab
  · exact .inr (heither.forall ha hb hab)

/-- What is not the replaced element stays. -/
theorem mem_set_of_ne (ha : a ∈ l) (hi : l[i]? = some b) (hne : a ≠ b) : a ∈ l.set i c := by
  obtain ⟨j, hj⟩ := List.mem_iff_getElem?.mp ha
  have hij : i ≠ j := by
    rintro rfl
    rw [hi] at hj
    exact hne (Option.some.inj hj).symm
  exact List.mem_iff_getElem?.mpr ⟨j, (List.getElem?_set_ne hij).trans hj⟩

end Lists

section Steps

variable {Session : Type} {J : Jason} {p : Sends Session J} {number : Nat} {key : Key Session}
  {response : Response}

/-! What a changed list of sends, mailbox or record of the process keeps. -/

variable {mail : J.Binary × Routed Session J} {threads threads' : List (Thread Session J)}
  {r : Routed Session J} {op : Op Id Owner J.Binary}

theorem SentFor.mono (h : SentFor threads number mail)
    (hsub : ∀ r, (r, Prog.ret ()) ∈ threads → (r, Prog.ret ()) ∈ threads') :
    SentFor threads' number mail :=
  ⟨h.binary, h.origin, hsub _ h.sent⟩

theorem Closed.mono (h : Closed threads number)
    (hsub : ∀ r, (r, Prog.ret ()) ∈ threads → (r, Prog.ret ()) ∈ threads') :
    Closed threads' number := by
  obtain ⟨r, hr, horigin, hfinal⟩ := h
  exact ⟨r, hsub r hr, horigin, hfinal⟩

theorem Mailed.mono {mailbox : List (J.Binary × Routed Session J)} {conn : Conn Session}
    (h : Mailed threads mailbox conn)
    (hsub : ∀ r, (r, Prog.ret ()) ∈ threads → (r, Prog.ret ()) ∈ threads') :
    Mailed threads' mailbox conn := by
  cases conn with
  | idle => exact h
  | handling => exact ⟨fun mail hmail => (h.1 mail hmail).mono hsub, h.2⟩

theorem Stage.mono {requests requests' : List (Key Session)} {prog : Send Id Owner J.Binary Unit}
    (h : Stage requests r prog) (hsub : ∀ key ∈ requests, key ∈ requests') :
    Stage requests' r prog := by
  cases h with
  | sendMessage => exact .sendMessage
  | unrelated => exact .unrelated
  | direct owner h =>
    refine .direct owner fun howner => ?_
    obtain ⟨key, hkey, heq⟩ := h howner
    exact ⟨key, hsub key hkey, heq⟩
  | storing => exact .storing
  | numbering => exact .numbering
  | telling event => exact .telling event
  | done => exact .done

theorem Isolated.withThreads (h : Isolated p)
    (log : List (Nat × Foundation.Event (Op Id Owner J.Binary) Op.Res))
    (hknown : ∀ t ∈ threads, Known p.world.requests t.1)
    (hstages : ∀ t ∈ threads, Stage p.world.requests t.1 t.2) (hordered : threads.Pairwise InTurn)
    (hsub : ∀ r, (r, Prog.ret ()) ∈ p.threads → (r, Prog.ret ()) ∈ threads) :
    Isolated ⟨p.world, threads, log⟩ := by
  refine ⟨h.registered, h.distinct, h.current, hknown, hstages, hordered, ?_, ?_, ?_⟩
  · intro number hlt hserving
    exact (h.past number hlt hserving).mono hsub
  · exact h.mailed.mono hsub
  · intro entry hentry
    exact (h.written entry hentry).mono hsub

theorem Isolated.withRegistry (h : Isolated p) {registry : Key Session → Option Owner}
    (hless : ∀ key, registry key = some .own → p.world.registry key = some .own) :
    Isolated { p with world := { p.world with registry := registry } } :=
  ⟨fun key hkey => h.registered key (hless key hkey), h.distinct, h.current, h.known, h.stages,
    h.ordered, h.past, h.mailed, h.written⟩

theorem Isolated.withWritten (h : Isolated p) (hsent : SentFor p.threads number mail) :
    Isolated { p with world := p.world.write number mail } := by
  refine ⟨h.registered, h.distinct, h.current, h.known, h.stages, h.ordered, h.past, h.mailed, ?_⟩
  intro entry hentry
  rcases List.mem_append.mp hentry with hold | hnew
  · exact h.written entry hold
  · rw [List.mem_singleton.mp hnew]
    exact hsent

/-- A send in progress for a request of the process is for the one being handled: the final
response to every earlier one has been sent, and nothing is sent after it. -/
theorem Isolated.serving (h : Isolated p) {t : Thread Session J} (ht : t ∈ p.threads)
    (hunfinished : finished t.2 = false) (horigin : t.1.origin = some number) :
    p.world.conn.serving number = true := by
  by_contra hnot
  obtain ⟨key, -, hrequest⟩ := (h.known t ht).own number horigin
  have hlt := (List.getElem?_eq_some_iff.mp hrequest).1
  obtain ⟨r, hr, hfor, hfinal⟩ := h.past number hlt (Bool.eq_false_iff.mpr hnot)
  rcases rel_of_pairwise h.ordered hr ht with rfl | hturn | hturn
  · cases hunfinished
  · have hsame : r.origin = t.1.origin := hfor.trans horigin.symm
    rw [(hturn hsame (hfor ▸ Option.some_ne_none number)).2] at hfinal
    cases hfinal
  · have hsame : t.1.origin = r.origin := horigin.trans hfor.symm
    rw [(hturn hsame (horigin ▸ Option.some_ne_none number)).1] at hunfinished
    cases hunfinished

/-- What a step of a send does: nothing to the process, or it puts its message, which is
related to a request of the process, into the mailbox. -/
theorem Stage.ran {w : World Session J} {k : op.Res → Send Id Owner J.Binary Unit}
    (h : Stage w.requests r (.call op k))
    (hregistered : ∀ key, w.registry key = some .own → key ∈ w.requests) (choice : Bool × Nat) :
    (Stage w.requests r (k (w.exec r choice op).1) ∧ (w.exec r choice op).2 = w) ∨
      (k (w.exec r choice op).1 = .ret () ∧ (∃ key ∈ w.requests, r.key = some key) ∧
        (w.exec r choice op).2 =
          { w with mailbox := w.mailbox ++ [(r.message.binary, r)] }) := by
  have hunrelated : Stage w.requests r (general r.message.binary choice.1) := by
    cases choice.1 with
    | true => exact .numbering
    | false => exact .storing
  generalize hprog : Prog.call op k = prog at h
  cases h with
  | sendMessage =>
    cases hrelated : r.message.related with
    | none =>
      have hsend : StreamableHttp.sendMessage r.message =
          (StreamableHttp.unrelated r.message.binary : Send Id Owner J.Binary Unit) := by
        rw [StreamableHttp.sendMessage, hrelated]
      rw [hsend] at hprog
      cases hprog
      exact .inl ⟨hunrelated, rfl⟩
    | some id =>
      have hsend : StreamableHttp.sendMessage r.message =
          (perform (.lookupStream id) >>= related r.message.binary :
            Send Id Owner J.Binary Unit) := by
        rw [StreamableHttp.sendMessage, hrelated]
      rw [hsend] at hprog
      cases hprog
      refine .inl ⟨?_, rfl⟩
      change Stage w.requests r (related r.message.binary (w.registry (r.session, id)))
      cases hfound : w.registry (r.session, id) with
      | none => exact .unrelated
      | some owner =>
        refine .direct owner fun howner => ⟨(r.session, id), hregistered _ ?_, ?_⟩
        · rw [hfound, howner]
        · rw [Routed.key, hrelated]
          rfl
  | unrelated =>
    cases hprog
    exact .inl ⟨hunrelated, rfl⟩
  | direct owner howner =>
    cases hprog
    cases owner with
    | own => exact .inr ⟨rfl, howner rfl, rfl⟩
    | other => exact .inl ⟨.done, rfl⟩
  | storing | telling =>
    cases hprog
    exact .inl ⟨.done, rfl⟩
  | numbering =>
    cases hprog
    exact .inl ⟨.telling choice.2, rfl⟩
  | done => cases hprog

/-- A send goes on. -/
theorem Isolated.set (h : Isolated p) {i : Nat} {k : op.Res → Send Id Owner J.Binary Unit}
    (hthread : p.threads[i]? = some (r, .call op k)) {later : Send Id Owner J.Binary Unit}
    (hstage : Stage p.world.requests r later)
    (log : List (Nat × Foundation.Event (Op Id Owner J.Binary) Op.Res)) :
    Isolated ⟨p.world, p.threads.set i (r, later), log⟩ := by
  have hmem := List.mem_of_getElem? hthread
  refine h.withThreads log ?_ ?_ (pairwise_set h.ordered hthread ?_ ?_) ?_
  · intro t ht
    rcases List.mem_or_eq_of_mem_set ht with hold | rfl
    · exact h.known t hold
    · exact h.known (r, .call op k) hmem
  · intro t ht
    rcases List.mem_or_eq_of_mem_set ht with hold | rfl
    · exact h.stages t hold
    · exact hstage
  · exact fun _ hturn => hturn
  · intro t hturn hsame hsome
    cases (hturn hsame hsome).1
  · intro r' hr'
    exact mem_set_of_ne hr' hthread fun heq => by cases heq

/-- The message of a send in progress arrives in the mailbox. -/
theorem Isolated.sent (h : Isolated p) {i : Nat} {k : op.Res → Send Id Owner J.Binary Unit}
    (hthread : p.threads[i]? = some (r, .call op k))
    (hkey : ∃ key ∈ p.world.requests, r.key = some key)
    (log : List (Nat × Foundation.Event (Op Id Owner J.Binary) Op.Res)) :
    Isolated ⟨{ p.world with mailbox := p.world.mailbox ++ [(r.message.binary, r)] },
      p.threads.set i (r, .ret ()), log⟩ := by
  have hmem := List.mem_of_getElem? hthread
  have hset := h.set hthread .done log
  obtain ⟨key, hrequest, hrelated⟩ := hkey
  obtain ⟨number, hnumber⟩ := List.mem_iff_getElem?.mp hrequest
  have horigin := (h.known _ hmem).only number key hnumber hrelated
  have hserving := h.serving hmem rfl horigin
  refine ⟨hset.registered, hset.distinct, hset.current, hset.known, hset.stages, hset.ordered,
    hset.past, ?_, hset.written⟩
  have hbefore := h.mailed
  have hmailed := hset.mailed
  cases hconn : p.world.conn with
  | idle =>
    rw [hconn] at hserving
    cases hserving
  | handling current _ response =>
    rw [hconn] at hserving hbefore hmailed
    obtain rfl : current = number := of_decide_eq_true hserving
    obtain ⟨hsent, hlast⟩ := hmailed
    have hreturned : (r, Prog.ret ()) ∈ p.threads.set i (r, .ret ()) :=
      List.mem_set (List.getElem?_eq_some_iff.mp hthread).1 _
    refine ⟨?_, List.pairwise_append.mpr ⟨hlast, List.pairwise_singleton _ _, ?_⟩⟩
    · intro mail hmail
      rcases List.mem_append.mp hmail with hold | hnew
      · exact hsent mail hold
      · rw [List.mem_singleton.mp hnew]
        exact ⟨rfl, horigin, hreturned⟩
    · -- what is in the mailbox was sent before, so none of it is the final response
      intro mail hmail _ _
      have hfor := hbefore.1 mail hmail
      have hsame : mail.2.origin = r.origin := hfor.origin.trans horigin.symm
      rcases rel_of_pairwise h.ordered hfor.sent hmem with heq | hturn | hturn
      · cases heq
      · exact (hturn hsame (hfor.origin ▸ Option.some_ne_none current)).2
      · cases (hturn hsame.symm (horigin ▸ Option.some_ne_none current)).1

/-! ## Steps of the process -/

/-- The mail of the current request that is its final response counts as one. -/
theorem Isolated.final_of_mail (h : Isolated p)
    (hconn : p.world.conn = .handling number key response) (hsent : SentFor p.threads number mail)
    (hfinal : finalResponse J mail.1 key.2 = true) : mail.2.final = true := by
  obtain ⟨key', hkey, hrequest⟩ := (h.known _ hsent.sent).own number hsent.origin
  rw [h.current number key response hconn] at hrequest
  cases hrequest
  obtain ⟨id, hrelated, heq⟩ := Option.map_eq_some_iff.mp hkey
  subst heq
  rw [Routed.final, hrelated, ← hsent.binary]
  exact hfinal

/-- The handling of a request ends with its final response, which is the last mail. -/
theorem Isolated.ended (h : Isolated p) (hconn : p.world.conn = .handling number key response)
    {rest : List (J.Binary × Routed Session J)} (hmailbox : p.world.mailbox = mail :: rest)
    (hfinal : finalResponse J mail.1 key.2 = true) :
    rest = [] ∧ SentFor p.threads number mail ∧
      Isolated { p with world := { p.world with mailbox := [], conn := .idle } } := by
  have hmailed := h.mailed
  rw [hconn, hmailbox] at hmailed
  obtain ⟨hsent, hlast⟩ := hmailed
  have hfor := hsent mail List.mem_cons_self
  have hclosing := h.final_of_mail hconn hfor hfinal
  refine ⟨?_, hfor, h.registered, h.distinct, ?_, h.known, h.stages, h.ordered, ?_, rfl,
    h.written⟩
  · refine List.eq_nil_iff_forall_not_mem.mpr fun later hlater => ?_
    rw [(List.pairwise_cons.mp hlast).1 later hlater] at hclosing
    cases hclosing
  · intro number key response heq
    cases heq
  · intro number' hlt _
    by_cases hsame : number = number'
    · subst hsame
      exact ⟨mail.2, hfor.sent, hfor.origin, hclosing⟩
    · refine h.past number' hlt ?_
      rw [hconn]
      exact decide_eq_false hsame

/-- The process takes some mail and goes on with the same request. -/
theorem Isolated.continued (h : Isolated p)
    (hconn : p.world.conn = .handling number key response)
    {taken rest : List (J.Binary × Routed Session J)}
    (hmailbox : p.world.mailbox = taken ++ rest) (response' : Response) :
    Isolated { p with
      world := { p.world with mailbox := rest, conn := .handling number key response' } } := by
  have hmailed := h.mailed
  rw [hconn, hmailbox] at hmailed
  refine ⟨h.registered, h.distinct, ?_, h.known, h.stages, h.ordered, ?_, ⟨?_, ?_⟩, h.written⟩
  · intro current key' response'' heq
    cases heq
    exact h.current number key response hconn
  · intro number' hlt hserving
    refine h.past number' hlt ?_
    rw [hconn]
    exact hserving
  · intro mail hmail
    exact hmailed.1 mail (List.mem_append_right _ hmail)
  · exact (List.pairwise_append.mp hmailed.2).2.1

section Moves

variable [DecidableEq Session] {key key' : Key Session} {registry : Key Session → Option Owner}

theorem register_own {owner : Owner} (h : register registry key owner key' = some .own) :
    registry key' = some .own ∨ (key' = key ∧ owner = .own) := by
  unfold register at h
  cases htaken : registry key with rw [htaken] at h
  | some => exact .inl h
  | none =>
    change (if key' = key then some owner else registry key') = some .own at h
    split at h
    · rename_i heq
      exact .inr ⟨heq, Option.some.inj h⟩
    · exact .inl h

theorem unregister_own {owner : Owner} (h : unregister registry key owner key' = some .own) :
    registry key' = some .own := by
  unfold unregister at h
  split at h
  · cases h
  · exact h

/-- The next request finds the mailbox empty and brings an id of its own. -/
theorem Isolated.accepted (h : Isolated p) (hconn : p.world.conn = .idle)
    (hfresh : key ∉ p.world.requests) (hunrelated : ∀ t ∈ p.threads, t.1.key ≠ some key) :
    Isolated { p with
      world := { p.world with
        registry := register p.world.registry key .own
        requests := p.world.requests ++ [key]
        conn := .handling p.world.requests.length key response } } := by
  have hgrow : ∀ {number : Nat} {key' : Key Session}, p.world.requests[number]? = some key' →
      (p.world.requests ++ [key])[number]? = some key' := by
    intro number key' hrequest
    rw [List.getElem?_append_left (List.getElem?_eq_some_iff.mp hrequest).1]
    exact hrequest
  have hmailed := h.mailed
  rw [hconn] at hmailed
  refine ⟨?_, ?_, ?_, ?_, ?_, h.ordered, ?_, ?_, h.written⟩
  · intro key' hkey'
    rcases register_own hkey' with hold | ⟨rfl, -⟩
    · exact List.mem_append_left _ (h.registered key' hold)
    · exact List.mem_append_right _ List.mem_cons_self
  · exact List.nodup_append.mpr ⟨h.distinct, List.nodup_singleton key, fun a ha b hb heq =>
      hfresh (List.mem_singleton.mp hb ▸ heq ▸ ha)⟩
  · intro number key' response' heq
    cases heq
    exact List.getElem?_concat_length
  · intro t ht
    refine ⟨fun number horigin => ?_, fun number key' hrequest hrelated => ?_⟩
    · obtain ⟨key', hkey', hrequest⟩ := (h.known t ht).own number horigin
      exact ⟨key', hkey', hgrow hrequest⟩
    · refine (h.known t ht).only number key' ?_ hrelated
      rcases List.mem_append.mp (List.mem_of_getElem? hrequest) with hold | hnew
      · -- an old key is not the new one, so its number is an old number
        by_contra hnot
        have hlast : p.world.requests.length ≤ number := by
          by_contra hlt
          rw [List.getElem?_append_left (Nat.lt_of_not_le hlt)] at hrequest
          exact hnot hrequest
        rw [List.getElem?_append_right hlast] at hrequest
        have hkey := List.mem_singleton.mp (List.mem_of_getElem? hrequest)
        exact hfresh (hkey ▸ hold)
      · rw [List.mem_singleton.mp hnew] at hrelated
        exact absurd hrelated (hunrelated t ht)
  · intro t ht
    exact (h.stages t ht).mono fun key' hkey' => List.mem_append_left _ hkey'
  · intro number hlt hserving
    have hne : p.world.requests.length ≠ number := of_decide_eq_false hserving
    rw [List.length_append, List.length_singleton] at hlt
    refine h.past number (by omega) ?_
    rw [hconn]
    rfl
  · constructor
    · intro mail hmail
      rw [hmailed] at hmail
      cases hmail
    · rw [hmailed]
      exact List.Pairwise.nil

/-- What the process does with a message that is the final response, or one that leaves the
stream open. -/
theorem Isolated.answered (h : Isolated p)
    (hconn : p.world.conn = .handling number key response) {rest : List (J.Binary × Routed Session J)}
    (hmailbox : p.world.mailbox = mail :: rest) {closed : Bool}
    (hC : finalResponse J mail.1 key.2 = true ∨ closed = false ∧ response ≠ .initializing) :
    Isolated { p with
      world := ({ p.world with mailbox := rest }).answer number key mail closed response } := by
  by_cases hfinal : finalResponse J mail.1 key.2 = true
  · obtain ⟨rfl, hsent, hended⟩ := h.ended hconn hmailbox hfinal
    have hwritten := hended.withWritten hsent
    cases response with simp only [World.answer, if_pos hfinal]
    | initializing => exact hwritten.withRegistry fun key' hkey' => unregister_own hkey'
    | plain => exact hwritten
    | sse =>
      cases closed with
      | true => exact hended
      | false => exact hwritten
  · obtain ⟨rfl, hresponse⟩ := hC.resolve_left hfinal
    have hmailed := h.mailed
    rw [hconn, hmailbox] at hmailed
    have htaken : p.world.mailbox = [mail] ++ rest := hmailbox
    have hcontinued := h.continued hconn htaken .sse
    have hwritten := hcontinued.withWritten (hmailed.1 mail List.mem_cons_self)
    cases response with
    | initializing => exact absurd rfl hresponse
    | plain | sse =>
      simp only [World.answer, if_neg hfinal]
      exact hwritten

/-- A step of the process, or of another one, keeps the invariant. -/
theorem Isolated.moved (h : Isolated p) {m : Move Session} (hC : Orderly p (.move m) = true)
    {w : World Session J} (hmove : p.world.move m = some w) :
    Isolated { p with world := w } := by
  cases m with simp only [World.move] at hmove
  | accept =>
    split at hmove
    · rename_i hconn
      cases hmove
      simp only [Orderly, Bool.and_eq_true, decide_eq_true_eq, List.all_eq_true] at hC
      exact h.accepted hconn hC.1 hC.2
    · cases hmove
  | receive =>
    split at hmove
    · rename_i number key response mail rest hconn hmailbox
      cases hmove
      simp only [Orderly, hconn, hmailbox, Bool.or_eq_true, Bool.and_eq_true,
        Bool.not_eq_true', decide_eq_true_eq] at hC
      exact h.answered hconn hmailbox hC
    · cases hmove
  | commit =>
    split at hmove
    · rename_i number key hconn
      cases hmove
      exact h.continued hconn (List.nil_append _).symm .sse
    · cases hmove
  | keepalive =>
    split at hmove
    · cases hmove
      rw [if_neg (by simpa [Orderly] using hC)]
      exact h
    · cases hmove
  | timeout | down => cases hC
  | otherRegister =>
    cases hmove
    refine h.withRegistry fun key' hkey' => ?_
    rcases register_own hkey' with hold | ⟨-, hother⟩
    · exact hold
    · cases hother
  | otherUnregister =>
    cases hmove
    exact h.withRegistry fun key' hkey' => unregister_own hkey'

/-- A send that arrives is for a request of the process just if it is related to its id. -/
theorem Isolated.known_arrived (h : Isolated p)
    (hC : Orderly p (.arrive r) = true) (hadmits : service.admits p r = true) :
    Known p.world.requests r := by
  cases horigin : r.origin with
  | none =>
    simp only [Orderly, horigin, List.all_eq_true, decide_eq_true_eq] at hC
    refine ⟨fun number hnumber => ?_, fun number key hrequest hkey => ?_⟩
    · rw [horigin] at hnumber
      cases hnumber
    · exact absurd hkey (hC key (List.mem_of_getElem? hrequest))
  | some =>
    simp only [service, horigin, Bool.and_eq_true, decide_eq_true_eq] at hadmits
    obtain ⟨hsome, hrequest⟩ := hadmits
    obtain ⟨key, hkey⟩ := Option.isSome_iff_exists.mp hsome
    rw [hkey] at hrequest
    refine ⟨fun number' hnumber' => ?_, fun number' key' hrequest' hkey' => ?_⟩
    · rw [horigin] at hnumber'
      cases hnumber'
      exact ⟨key, hkey, hrequest⟩
    · rw [hkey] at hkey'
      cases hkey'
      have hlt := (List.getElem?_eq_some_iff.mp hrequest).1
      rw [horigin, (List.getElem?_inj hlt h.distinct).mp (hrequest.trans hrequest'.symm)]

/-- Every orderly step keeps the invariant. -/
theorem Isolated.step (h : Isolated p) {a : Step Session J} (hC : Orderly p a = true)
    {q : Sends Session J} (hs : service.step p a = some q) : Isolated q := by
  rcases Service.step_cases hs with ⟨r, rfl, hadmits, rfl⟩ |
    ⟨i, choice, r, op, k, out, w, rfl, hthread, hexec, rfl⟩ | ⟨m, w, rfl, hmove, rfl⟩
  · refine h.withThreads p.log ?_ ?_ ?_ fun r' hr' => List.mem_append_left _ hr'
    · intro t ht
      rcases List.mem_append.mp ht with hold | hnew
      · exact h.known t hold
      · rw [List.mem_singleton.mp hnew]
        exact h.known_arrived hC hadmits
    · intro t ht
      rcases List.mem_append.mp ht with hold | hnew
      · exact h.stages t hold
      · rw [List.mem_singleton.mp hnew]
        exact .sendMessage
    · refine List.pairwise_append.mpr ⟨h.ordered, List.pairwise_singleton _ _, ?_⟩
      intro t ht t' ht' hsame hsome
      rw [List.mem_singleton.mp ht'] at hsame
      change t.1.origin = r.origin at hsame
      obtain ⟨number, hnumber⟩ := Option.ne_none_iff_exists'.mp (hsame ▸ hsome)
      simp only [Orderly, hnumber, List.all_eq_true, Bool.or_eq_true, decide_eq_true_eq,
        Bool.and_eq_true, Bool.not_eq_true'] at hC
      exact (hC t ht).resolve_left fun hne => hne (hsame.trans hnumber)
  · change (p.threads[i]?).map (fun t => p.world.exec t.1 choice op) = some (out, w) at hexec
    rw [hthread] at hexec
    have hout : p.world.exec r choice op = (out, w) := Option.some.inj hexec
    have hstage := h.stages _ (List.mem_of_getElem? hthread)
    rcases hstage.ran h.registered choice with ⟨hlater, hsame⟩ | ⟨hreturned, hkey, hsent⟩
    · rw [hout] at hlater hsame
      cases hsame
      exact h.set hthread hlater _
    · rw [hout] at hreturned hsent
      cases hsent
      rw [hreturned]
      exact h.sent hthread hkey _
  · exact h.moved hC hmove

end Moves

end Steps

theorem isolated_idle {Session : Type} {J : Jason} :
    Isolated (Pool.idle {} : Sends Session J) := by
  refine ⟨?_, List.nodup_nil, ?_, ?_, ?_, List.Pairwise.nil, ?_, rfl, ?_⟩
  · intro key hkey
    cases hkey
  · intro number key response hconn
    cases hconn
  · intro t ht
    cases ht
  · intro t ht
    cases ht
  · intro number hlt
    cases hlt
  · intro entry hentry
    cases hentry

/-- Whatever is written into the response of a request was routed for that request, with its
id, by the sink of its session. -/
theorem written_for_own_request {Session : Type} [DecidableEq Session] {J : Jason}
    {p : Sends Session J}
    (h : service.ReachUnder (fun p a => Orderly p a = true) (Pool.idle {}) p) {number : Nat}
    {binary : J.Binary} {r : Routed Session J} (hwritten : (number, binary, r) ∈ p.world.written) :
    ∃ id, p.world.requests[number]? = some (r.session, id) ∧ r.message.related = some id ∧
      r.message.binary = binary ∧ r.origin = some number ∧ (r, Prog.ret ()) ∈ p.threads := by
  have hisolated : Isolated p :=
    h.invariant Isolated (fun _ _ _ hp hC hs => hp.step hC hs) isolated_idle
  have hfor := hisolated.written _ hwritten
  obtain ⟨key, hkey, hrequest⟩ := (hisolated.known _ hfor.sent).own number hfor.origin
  obtain ⟨id, hrelated, rfl⟩ := Option.map_eq_some_iff.mp hkey
  exact ⟨id, hrequest, hrelated, hfor.binary.symm, hfor.origin, hfor.sent⟩

/-- The progress of a call and the response to a request. -/
def progress : Json := .obj [("method", .str "notifications/progress")]

def result (id : Int) : Json := .obj [("id", .int id), ("result", .obj [])]

/-- A message for request `number` of session `session`, which has the id `id`. -/
def routedFor (session : Nat) (id : Int) (number : Nat) (binary : Json) :
    Routed Nat Jason.plain where
  session := session
  message := { binary := binary, related := some (.int id) }
  origin := some number

/-- Send number `i` from its arrival to its return. -/
def sending (i : Nat) (r : Routed Nat Jason.plain) : List (Step Nat Jason.plain) :=
  [.arrive r, .run i (false, 0), .run i (false, 0)]

/-- The response that was written to, the routing of the message and the request it was for. -/
structure Entry where
  number : Nat
  session : Nat
  related : Option Id
  origin : Option Nat
  deriving DecidableEq

/-- What has been written, without the bytes. -/
def entries (p : Sends Nat Jason.plain) : List Entry :=
  p.world.written.map fun e => ⟨e.1, e.2.2.session, e.2.2.message.related, e.2.2.origin⟩

/-- Two requests on one connection, the first one with progress. -/
theorem written_for_two_requests :
    ∃ (p : Sends Nat Jason.plain) (binary : Json) (r : Routed Nat Jason.plain),
      entries p = [⟨0, 1, some (.int 1), some 0⟩, ⟨0, 1, some (.int 1), some 0⟩,
        ⟨1, 1, some (.int 2), some 1⟩] ∧
      (1, binary, r) ∈ p.world.written ∧
      ∃ id, p.world.requests[1]? = some (r.session, id) ∧ r.message.related = some id ∧
        r.message.binary = binary ∧ r.origin = some 1 ∧ (r, Prog.ret ()) ∈ p.threads := by
  have hrun : (service.runsIf Orderly (Pool.idle {} : Sends Nat Jason.plain)
      ([.move (.accept (1, .int 1) false)] ++ sending 0 (routedFor 1 1 0 progress) ++
        [.move (.receive false)] ++ sending 1 (routedFor 1 1 0 (result 1)) ++
        [.move (.receive false), .move (.accept (1, .int 2) false)] ++
        sending 2 (routedFor 1 2 1 (result 2)) ++ [.move (.receive false)])).map entries =
      some [⟨0, 1, some (.int 1), some 0⟩, ⟨0, 1, some (.int 1), some 0⟩,
        ⟨1, 1, some (.int 2), some 1⟩] := by
    decide +kernel
  obtain ⟨p, hp, hentries⟩ := Option.map_eq_some_iff.mp hrun
  have hlast : (⟨1, 1, some (.int 2), some 1⟩ : Entry) ∈ entries p := by
    rw [hentries]
    exact List.mem_cons_of_mem _ (List.mem_cons_of_mem _ List.mem_cons_self)
  obtain ⟨⟨number, binary, r⟩, hmem, heq⟩ := List.mem_map.mp hlast
  obtain rfl : number = 1 := congrArg Entry.number heq
  exact ⟨p, binary, r, hentries, hmem,
    written_for_own_request (Service.reachUnder_of_runsIf hp) hmem⟩

/-- The response to a request that has timed out is written into the response of the next
one; and progress of a request that has been answered is written into the response of the
next one, of another session. -/
theorem late_message_misdelivered :
    ∃ late leaked : Sends Nat Jason.plain,
      (service.Reach (Pool.idle {}) late ∧
        late.world.requests = [(1, .int 1), (1, .int 2)] ∧
        entries late = [⟨1, 1, some (.int 1), some 0⟩]) ∧
      (service.Reach (Pool.idle {}) leaked ∧
        leaked.world.requests = [(1, .int 1), (2, .int 1)] ∧
        entries leaked = [⟨0, 1, some (.int 1), some 0⟩, ⟨1, 1, some (.int 1), some 0⟩]) := by
  have hruns := Service.exists_of_runs (S := service)
    (p := (Pool.idle {} : Sends Nat Jason.plain)) (f := fun p => (p.world.requests, entries p))
  obtain ⟨late, hlate, hout⟩ := hruns
    ([.move (.accept (1, .int 1) false), .move .timeout, .move (.accept (1, .int 2) false)] ++
      sending 0 (routedFor 1 1 0 (result 1)) ++ [.move (.receive false)])
    ([(1, .int 1), (1, .int 2)], [⟨1, 1, some (.int 1), some 0⟩]) (by decide +kernel)
  obtain ⟨leaked, hleaked, hout'⟩ := hruns
    ([.move (.accept (1, .int 1) false)] ++ sending 0 (routedFor 1 1 0 (result 1)) ++
      [.move (.receive false), .move (.accept (2, .int 1) false)] ++
      sending 1 (routedFor 1 1 0 progress) ++ [.move (.receive false)])
    ([(1, .int 1), (2, .int 1)],
      [⟨0, 1, some (.int 1), some 0⟩, ⟨1, 1, some (.int 1), some 0⟩]) (by decide +kernel)
  exact ⟨late, leaked, ⟨hlate, Prod.mk.inj hout⟩, ⟨hleaked, Prod.mk.inj hout'⟩⟩

end NoizuMcp.Transport.StreamableHttp.Post
