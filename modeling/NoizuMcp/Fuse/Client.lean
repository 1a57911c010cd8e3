import NoizuMcp.Foundation.Program
import NoizuMcp.Protocol.JsonRpc

/-!
# The client of the FUSE mount

`Client.Call` sends a request on a socket and reads frames until one has the id of the request.
A call that times out is given up with the connection left as it is. After any other failure
of the socket the connection is dropped and the request is sent once more on a new one.

The server executes a request when it receives it, once, and owes an answer. A request may be
executed by the first attempt and refused at the second (`create_refused_after_effect`). Where
no connection is lost between the execution of a request and its answer, an error other than
that of a timeout means that nothing was changed (`error_means_no_effect`).

A read that times out inside a frame leaves the connection torn: what is read next does not begin
where a frame begins. Frames are modelled as the values they carry, and bytes that are no frame
as a failed read.
-/

set_option autoImplicit false

namespace NoizuMcp.Fuse

open Foundation (Prog)

open Foundation.Prog (Ran Always always_bind)

open Protocol (Fields)

abbrev Bytes := List UInt8

/-! ## Errors -/

/-- `vfsErrno`. -/
inductive Errno where
  | enoent
  | eio
  | eacces
  | eexist
  | enotdir
  | eisdir
  | efbig
  | erofs
  | enosys
  | enotempty
  | eopnotsupp
  | econnreset
  | estale
  deriving DecidableEq

/-- `rpcError`. -/
structure RpcError where
  code : Int
  message : String
  data : Fields
  deriving DecidableEq

/-- `errnoByAtom`. -/
def errnoByAtom : List (String × Errno) :=
  [("enoent", .enoent), ("eacces", .eacces), ("eperm", .eacces), ("eexist", .eexist),
    ("erofs", .erofs), ("eisdir", .eisdir), ("enotdir", .enotdir), ("enotempty", .enotempty),
    ("enosys", .enosys), ("enotsup", .eopnotsupp), ("eio", .eio)]

/-- `errnoByCode`. -/
def errnoByCode : List (Int × Errno) :=
  [(-32002, .enoent), (-32040, .eacces), (-32041, .eexist), (-32042, .erofs), (-32043, .eisdir),
    (-32044, .enotdir), (-32045, .enotempty), (-32046, .enosys), (-32001, .eacces)]

/-- `errnoFromRPC`. -/
def errnoFromRpc (error : RpcError) : Errno :=
  let byCode := (errnoByCode.lookup error.code).getD .eio
  match error.data.lookup "errno_atom" with
  | some (.str atom) => (errnoByAtom.lookup atom).getD byCode
  | _ => byCode

/-- How a call of the socket fails. -/
inductive Failure where
  | timeout
  | eof
  | other
  deriving DecidableEq

/-- `errnoFromTransport`. -/
def errnoFromTransport : Failure → Errno
  | .timeout => .estale
  | .eof => .econnreset
  | .other => .eio

/-! ## Calls -/

/-- `rpcResponse`; an id that is absent or `null` reads as 0. -/
structure Response where
  id : Nat
  result : Bytes := []
  error : Option RpcError := none
  deriving DecidableEq

/-- The JSON library. -/
structure Codec (Node : Type) where
  marshal : Nat → String → Fields → Option Bytes
  authenticated : Bytes → Bool
  node : Bytes → Option Node

/-- A call of the client: `into` reads the result, and `fuel` bounds the frames it reads. -/
structure Call (Out : Type) where
  method : String
  params : Fields
  into : Option (Bytes → Option Out)
  fuel : Nat

/-- What `Call` returns for a response. -/
def Call.value {Out : Type} (call : Call Out) (response : Response) : Except Errno (Option Out) :=
  match response.error with
  | some error => .error (errnoFromRpc error)
  | none =>
    match call.into with
    | none => .ok none
    | some into =>
      if response.result = [] then .ok none
      else
        match into response.result with
        | some out => .ok (some out)
        | none => .error .eio

/-- A step of the client. -/
inductive Op where
  /-- `c.conn == nil` -/
  | connected
  /-- `net.DialTimeout`, and ids from 1 again -/
  | dial
  /-- `c.nextID++` -/
  | nextId
  | write (id : Nat) (method : String) (params : Fields)
  /-- `readFrame`, for the answer to a request -/
  | readFrame (id : Nat)
  | closeConn
  /-- nothing any more -/
  | wait

/-- What an operation gives back. -/
def Op.Res : Op → Type
  | .connected => Bool
  | .dial => Option Failure
  | .nextId => Nat
  | .write _ _ _ => Option Failure
  | .readFrame _ => Except Errno Response
  | .closeConn => Unit
  | .wait => Empty

/-- A method of the client over its operations. -/
abbrev Client (α : Type) := Prog Op Op.Res α

def perform (op : Op) : Client op.Res := Prog.perform op

/-- The largest frame, in bytes. -/
def maxFrameSize : Nat := 16777216

section Programs

variable {Node Out : Type} (G : Codec Node)

/-- The loop of `roundTrip`: frames with another id are skipped. -/
def awaitResponse (id : Nat) : Nat → Client (Except Errno Response)
  | 0 => .call .wait nofun
  | fuel + 1 => do
    let response ← perform (.readFrame id)
    match response with
    | .error errno => return .error errno
    | .ok response => if response.id = id then return .ok response else awaitResponse id fuel

/-- `roundTrip` with the id at hand. -/
def exchange (fuel : Nat) (method : String) (params : Fields) (id : Nat) :
    Client (Except Errno Response) :=
  match G.marshal id method params with
  | none => return .error .eio
  | some body =>
    if maxFrameSize < body.length then return .error .efbig
    else do
      let written ← perform (.write id method params)
      match written with
      | some failure => return .error (errnoFromTransport failure)
      | none => awaitResponse id fuel

/-- `roundTrip`. -/
def roundTrip (fuel : Nat) (method : String) (params : Fields) :
    Client (Except Errno Response) := do
  let id ← perform .nextId
  exchange G fuel method params id

variable (apiKey : String)

/-- `auth`; `none` is errno 0. -/
def auth (fuel : Nat) : Client (Option Errno) := do
  let response ← roundTrip G fuel "vfs/auth" [("api_key", .str apiKey)]
  match response with
  | .error _ => return some .eacces
  | .ok response =>
    match response.error with
    | some error => return some (errnoFromRpc error)
    | none => return if G.authenticated response.result then none else some .eacces

/-- The loop of `dial`. -/
def dialLoop (fuel : Nat) : Nat → Errno → Client (Option Errno)
  | 0, lastErrno => return some lastErrno
  | attempts + 1, _ => do
    let dialed ← perform .dial
    match dialed with
    | some failure => dialLoop fuel attempts (errnoFromTransport failure)
    | none =>
      let refused ← auth G apiKey fuel
      match refused with
      | none => return none
      | some errno =>
        let _ ← perform .closeConn
        return some errno

/-- How `Call` begins: `dial` if there is no connection. -/
def ensure (fuel : Nat) : Client (Option Errno) := do
  let connected ← perform .connected
  match connected with
  | true => return none
  | false => dialLoop G apiKey fuel 3 .eio

/-- What `Call` does about an error: timeouts and local limits are returned, anything else
drops the connection. -/
def afterError (errno : Errno) : Client (Except Errno (Option Out) ⊕ Errno) :=
  if errno = .estale ∨ errno = .efbig then return .inl (.error errno)
  else do
    let _ ← perform .closeConn
    return .inr errno

/-- One turn of the loop of `Call`: what it returns, or the error to try again after. -/
def turn (call : Call Out) : Client (Except Errno (Option Out) ⊕ Errno) := do
  let refused ← ensure G apiKey call.fuel
  match refused with
  | some errno => return .inl (.error errno)
  | none =>
    let response ← roundTrip G call.fuel call.method call.params
    match response with
    | .ok response => return .inl (call.value response)
    | .error errno => afterError errno

/-- `Call`: a second turn on a fresh connection, and no third. -/
def Call.run (call : Call Out) : Client (Except Errno (Option Out)) := do
  let first ← turn G apiKey call
  match first with
  | .inl returned => return returned
  | .inr _ =>
    let second ← turn G apiKey call
    match second with
    | .inl returned => return returned
    | .inr errno => return .error errno

/-- The calls that change the tree. -/
inductive Mutation where
  | create (path data : String)
  | write (path data : String)
  | remove (path : String)

/-- `Create`, `Write` and `Remove`. -/
def Mutation.call (fuel : Nat) : Mutation → Call Node
  | .create path data =>
    ⟨"vfs/create", [("path", .str path), ("data", .str data)], some G.node, fuel⟩
  | .write path data => ⟨"vfs/write", [("path", .str path), ("data", .str data)], some G.node, fuel⟩
  | .remove path => ⟨"vfs/remove", [("path", .str path)], none, fuel⟩

end Programs

/-! ## The server and the socket -/

/-- A server of trees: what it refuses changes nothing, and neither does a login. -/
structure Server (σ : Type) where
  serve : σ → String → Fields → σ × Except RpcError Bytes
  refused : ∀ tree method params error, (serve tree method params).2 = .error error →
    (serve tree method params).1 = tree
  auth : ∀ tree params, (serve tree "vfs/auth" params).1 = tree

/-- The client's fields, the answers that the server owes on the connection, and its tree. -/
structure World (σ : Type) where
  tree : σ
  isOpen : Bool := false
  torn : Bool := false
  nextID : Nat := 0
  owed : List Response := []

/-- The answer to a request. -/
def Response.of (id : Nat) : Except RpcError Bytes → Response
  | .ok result => ⟨id, result, none⟩
  | .error error => ⟨id, [], some error⟩

variable {σ Node Out : Type}

/-- The server gets a request and executes it. -/
def World.received (server : Server σ) (w : World σ) (id : Nat) (method : String)
    (params : Fields) : World σ :=
  { w with
    tree := (server.serve w.tree method params).1
    owed := w.owed ++ [.of id (server.serve w.tree method params).2] }

/-- How a step can go. A request may or may not reach the server, whatever `Write` says; the
answers come in any order, between frames that answer nothing; any read may fail, and what is
read from a torn connection is arbitrary. -/
inductive Does (server : Server σ) : (op : Op) → World σ → op.Res → World σ → Prop
  | connected (w : World σ) : Does server .connected w w.isOpen w
  | dialed (w : World σ) : Does server .dial w none
      { w with isOpen := true, torn := false, nextID := 0, owed := [] }
  | undialed (w : World σ) (failure : Failure) : Does server .dial w (some failure) w
  | nextId (w : World σ) : Does server .nextId w (w.nextID + 1) { w with nextID := w.nextID + 1 }
  | arrived (w : World σ) (id : Nat) (method : String) (params : Fields)
      (failure : Option Failure) :
      Does server (.write id method params) w failure (w.received server id method params)
  | lost (w : World σ) (id : Nat) (method : String) (params : Fields) (failure : Option Failure) :
      Does server (.write id method params) w failure w
  | frame {w : World σ} (id : Nat) (before after : List Response) {response : Response}
      (howed : w.owed = before ++ response :: after) (htorn : w.torn = false) :
      Does server (.readFrame id) w (.ok response) { w with owed := before ++ after }
  | noise (w : World σ) (id : Nat) {response : Response} (hid : response.id = 0) :
      Does server (.readFrame id) w (.ok response) w
  | failed (w : World σ) (id : Nat) (failure : Failure) (inside : Bool) :
      Does server (.readFrame id) w (.error (errnoFromTransport failure))
        { w with torn := w.torn || inside }
  | malformed (w : World σ) (id : Nat) : Does server (.readFrame id) w (.error .eio) w
  | garbage {w : World σ} (id : Nat) (response : Response) (htorn : w.torn = true) :
      Does server (.readFrame id) w (.ok response) w
  | closed (w : World σ) : Does server .closeConn w () { w with isOpen := false }

/-- No connection is lost with an answer on it that is waited for: a request that the server
gets is written to a connection that is not torn, and neither writing it nor reading while its
answer is owed fails, unless by a timeout. -/
def Unbroken : (op : Op) → World σ → op.Res → World σ → Prop
  | .write _ _ _, w, failure, w' =>
    w'.owed ≠ w.owed → w.torn = false ∧ (failure = none ∨ failure = some .timeout)
  | .readFrame id, w, result, _ =>
    (∃ response ∈ w.owed, response.id = id) → ∀ errno, result = .error errno → errno = .estale
  | _, _, _, _ => True

/-- A step that loses no answer. -/
def Keeps (server : Server σ) (op : Op) (w : World σ) (r : op.Res) (w' : World σ) : Prop :=
  Does server op w r w' ∧ Unbroken op w r w'

/-- The answers that are owed are those to earlier requests. -/
def World.Fresh (w : World σ) : Prop := ∀ response ∈ w.owed, response.id ≤ w.nextID

/-! ## What a call does to the tree -/

section Effects

variable {server : Server σ} {G : Codec Node} {apiKey : String} {w w' : World σ}
  {method : String} {params : Fields}

/-- The tree is what it was. -/
def Quiet {β : Type} (w : World σ) (_ : β) (w' : World σ) : Prop := w'.tree = w.tree ∧ w'.Fresh

theorem fresh_received (hfresh : w.Fresh) :
    ({ w with nextID := w.nextID + 1 }.received server (w.nextID + 1) method params).Fresh := by
  intro response hmem
  rcases List.mem_append.mp hmem with hold | hnew
  · exact Nat.le_succ_of_le (hfresh response hold)
  · rw [List.mem_singleton.mp hnew]
    cases (server.serve w.tree method params).2 with
    | ok | error => exact Nat.le_refl _

/-- Reading executes nothing. -/
theorem quiet_readFrame {id : Nat} {result : Except Errno Response} (hfresh : w.Fresh)
    (hstep : Does server (.readFrame id) w result w') : w'.tree = w.tree ∧ w'.Fresh := by
  cases hstep with
  | frame _ _ _ howed =>
    refine ⟨rfl, fun response hmem => hfresh response ?_⟩
    rw [howed]
    rcases List.mem_append.mp hmem with hbefore | hafter
    · exact List.mem_append_left _ hbefore
    · exact List.mem_append_right _ (List.mem_cons_of_mem _ hafter)
  | noise | malformed | garbage | failed => exact ⟨rfl, hfresh⟩

theorem awaitResponse_quiet (id : Nat) : ∀ (fuel : Nat) (w : World σ), w.Fresh →
    Always (Keeps server) (Quiet w) (awaitResponse id fuel) w := by
  intro fuel
  induction fuel with
  | zero =>
    intro w _ r w' hstep
    cases hstep.1
  | succ _ ih =>
    intro w hfresh result w₁ hstep
    obtain ⟨htree, hfresh₁⟩ := quiet_readFrame hfresh hstep.1
    cases result with
    | error => exact ⟨htree, hfresh₁⟩
    | ok =>
      dsimp only [Prog.ret_bind]
      split
      · exact ⟨htree, hfresh₁⟩
      · exact (ih w₁ hfresh₁).mono fun _ _ h => ⟨h.1.trans htree, h.2⟩

/-- What comes of a round trip: the tree is what it was, or the request was executed, and then
the call timed out or the request was granted and this is the answer. -/
def Settles (server : Server σ) (method : String) (params : Fields) (w : World σ)
    (result : Except Errno Response) (w' : World σ) : Prop :=
  w'.Fresh ∧ (w'.tree = w.tree ∨ w'.tree = (server.serve w.tree method params).1 ∧
    (result = .error .estale ∨ ∃ response, result = .ok response ∧ response.error = none ∧
      (server.serve w.tree method params).2 = .ok response.result))

/-- While an answer is owed on a sound connection, the loop ends with it or by a timeout. -/
theorem awaitResponse_owed (answer : Response) (hid : answer.id ≠ 0) :
    ∀ (fuel : Nat) (w : World σ), w.Fresh → w.torn = false → answer ∈ w.owed →
      (∀ response ∈ w.owed, response.id = answer.id → response = answer) →
      Always (Keeps server)
        (fun result w' => Quiet w result w' ∧ (result = .error .estale ∨ result = .ok answer))
        (awaitResponse answer.id fuel) w := by
  intro fuel
  induction fuel with
  | zero =>
    intro w _ _ _ _ r w' hstep
    cases hstep.1
  | succ _ ih =>
    intro w hfresh htorn howed honly result w₁ hstep
    have hquiet := quiet_readFrame hfresh hstep.1
    cases result with
    | error errno => exact ⟨hquiet, .inl (congrArg _ (hstep.2 ⟨answer, howed, rfl⟩ errno rfl))⟩
    | ok response =>
      dsimp only [Prog.ret_bind]
      split
      case isTrue hown =>
        refine ⟨hquiet, .inr (congrArg _ ?_)⟩
        cases hstep.1 with
        | frame _ _ _ hsplit =>
          exact honly response (hsplit ▸ List.mem_append_right _ List.mem_cons_self) hown
        | noise _ _ hzero => exact absurd (hown.symm.trans hzero) hid
        | garbage _ _ htorn' => cases htorn.symm.trans htorn'
      case isFalse hother =>
        cases hstep.1 with
        | frame _ before after hsplit =>
          have hsub : ∀ r ∈ before ++ after, r ∈ w.owed := by
            intro r hr
            rw [hsplit]
            rcases List.mem_append.mp hr with hbefore | hafter
            · exact List.mem_append_left _ hbefore
            · exact List.mem_append_right _ (List.mem_cons_of_mem _ hafter)
          refine ih _ hquiet.2 htorn ?_ fun r hr => honly r (hsub r hr)
          -- The frame that was read is another one.
          rw [hsplit] at howed
          rcases List.mem_append.mp howed with hbefore | hafter
          · exact List.mem_append_left _ hbefore
          · rcases List.mem_cons.mp hafter with rfl | hafter
            · exact absurd rfl hother
            · exact List.mem_append_right _ hafter
        | noise => exact ih _ hquiet.2 htorn howed honly
        | garbage _ _ htorn' => cases htorn.symm.trans htorn'

section

variable (fuel : Nat) (hfresh : w.Fresh)

include fuel hfresh

/-- A request was executed and its answer is owed. -/
theorem arrived_settles (htorn : w.torn = false) :
    Always (Keeps server) (Settles server method params w) (awaitResponse (w.nextID + 1) fuel)
      ({ w with nextID := w.nextID + 1 }.received server (w.nextID + 1) method params) := by
  generalize hanswer : Response.of (w.nextID + 1) (server.serve w.tree method params).2 = answer
  have hid : answer.id = w.nextID + 1 := by
    rw [← hanswer]
    cases (server.serve w.tree method params).2 <;> rfl
  have howed : ∀ response ∈ w.owed ++ [answer], response.id = answer.id → response = answer := by
    intro response hmem hsame
    rcases List.mem_append.mp hmem with hold | hnew
    · have hle := hfresh response hold
      omega
    · exact List.mem_singleton.mp hnew
  have hloop : Always (Keeps server) _ _ _ := awaitResponse_owed answer (by omega) fuel
    ({ w with nextID := w.nextID + 1 }.received server (w.nextID + 1) method params)
    (fresh_received hfresh) htorn (by simp [World.received, hanswer])
    (by simpa only [World.received, hanswer] using howed)
  rw [hid] at hloop
  refine hloop.mono fun result w' h => ⟨h.1.2, ?_⟩
  rcases h.2 with hstale | rfl
  · exact .inr ⟨h.1.1, .inl hstale⟩
  · cases hserved : (server.serve w.tree method params).2 with
    | error error => exact .inl (h.1.1.trans (server.refused _ _ _ error hserved))
    | ok =>
      rw [hserved] at hanswer
      refine .inr ⟨h.1.1, .inr ⟨answer, rfl, ?_, ?_⟩⟩
      · rw [← hanswer]
        rfl
      · rw [← hanswer]
        rfl

theorem exchange_settles : Always (Keeps server) (Settles server method params w)
      (exchange G fuel method params (w.nextID + 1)) { w with nextID := w.nextID + 1 } := by
  have hnext : World.Fresh { w with nextID := w.nextID + 1 } :=
    fun response hmem => Nat.le_succ_of_le (hfresh response hmem)
  unfold exchange
  cases G.marshal (w.nextID + 1) method params with
  | none => exact ⟨hnext, .inl rfl⟩
  | some =>
    dsimp only
    split
    · exact ⟨hnext, .inl rfl⟩
    intro failure w₁ hstep
    cases hstep.1 with
    | lost =>
      cases failure with
      | some => exact ⟨hnext, .inl rfl⟩
      | none => exact (awaitResponse_quiet _ fuel _ hnext).mono fun _ _ h => ⟨h.2, .inl h.1⟩
    | arrived =>
      obtain ⟨htorn, hwritten⟩ := hstep.2 (by simp [World.received])
      rcases hwritten with rfl | rfl
      · exact arrived_settles fuel hfresh htorn
      · exact ⟨fresh_received hfresh, .inr ⟨rfl, .inl rfl⟩⟩

theorem roundTrip_settles :
    Always (Keeps server) (Settles server method params w) (roundTrip G fuel method params) w := by
  intro id w₁ hstep
  cases hstep.1
  exact exchange_settles fuel hfresh

/-- A login changes nothing. -/
theorem auth_quiet : Always (Keeps server) (Quiet w) (auth G apiKey fuel) w := by
  apply always_bind.mpr
  refine (roundTrip_settles fuel hfresh).mono fun result w₁ h => ?_
  have hquiet : w₁.tree = w.tree ∧ w₁.Fresh := by
    refine ⟨?_, h.1⟩
    rcases h.2 with htree | ⟨hserved, -⟩
    · exact htree
    · exact hserved.trans (server.auth _ _)
  cases result with
  | error => exact hquiet
  | ok response =>
    dsimp only
    cases response.error with
    | some | none => exact hquiet

end

theorem dialLoop_quiet (fuel : Nat) : ∀ (attempts : Nat) (errno : Errno) (w : World σ), w.Fresh →
    Always (Keeps server) (Quiet w) (dialLoop G apiKey fuel attempts errno) w := by
  intro attempts
  induction attempts with
  | zero => exact fun _ w hfresh => ⟨rfl, hfresh⟩
  | succ _ ih =>
    intro errno w hfresh dialed w₁ hstep
    cases hstep.1 with
    | undialed => exact ih _ w hfresh
    | dialed =>
      change Always (Keeps server) (Quiet w) ((auth G apiKey fuel).bind _) _
      apply always_bind.mpr
      have hempty : World.Fresh { w with isOpen := true, torn := false, nextID := 0, owed := [] } :=
        List.forall_mem_nil _
      refine (auth_quiet fuel hempty).mono fun refused w₂ h => ?_
      cases refused with
      | none => exact h
      | some =>
        intro _ w₃ hclosed
        cases hclosed.1
        exact h

theorem ensure_quiet (fuel : Nat) (hfresh : w.Fresh) :
    Always (Keeps server) (Quiet w) (ensure G apiKey fuel) w := by
  intro connected w₁ hstep
  cases hstep.1
  cases w.isOpen with
  | true => exact ⟨rfl, hfresh⟩
  | false => exact dialLoop_quiet fuel 3 .eio w hfresh

/-- The client can read what the server answers to the request. -/
def Call.Decodes (server : Server σ) (call : Call Out) : Prop :=
  ∀ into ∈ call.into, ∀ tree bytes,
    (server.serve tree call.method call.params).2 = .ok bytes → bytes = [] ∨ (into bytes).isSome

variable {call : Call Out}

theorem value_granted (hdecodes : call.Decodes server) {response : Response}
    (herror : response.error = none) {tree : σ}
    (hserved : (server.serve tree call.method call.params).2 = .ok response.result) :
    ∃ out, call.value response = .ok out := by
  unfold Call.value
  rw [herror]
  cases hinto : call.into with
  | none => exact ⟨none, rfl⟩
  | some into =>
    dsimp only
    split
    · exact ⟨none, rfl⟩
    case isFalse hne =>
      rcases hdecodes into hinto tree _ hserved with hempty | hsome
      · exact absurd hempty hne
      · obtain ⟨out, hout⟩ := Option.isSome_iff_exists.mp hsome
        exact ⟨some out, by rw [hout]⟩

/-- What comes of a call: the tree is what it was, or the call timed out, or it succeeded. -/
def Concludes (w : World σ) (result : Except Errno (Option Out)) (w' : World σ) : Prop :=
  w'.tree = w.tree ∨ result = .error .estale ∨ ∃ out, result = .ok out

/-- A turn concludes the call, or leaves the tree as it was. -/
theorem turn_concludes (hdecodes : call.Decodes server) (hfresh : w.Fresh) :
    Always (Keeps server)
      (fun result w' => w'.Fresh ∧ match result with
        | .inl returned => Concludes w returned w'
        | .inr _ => w'.tree = w.tree)
      (turn G apiKey call) w := by
  apply always_bind.mpr
  refine (ensure_quiet call.fuel hfresh).mono fun refused w₁ h₁ => ?_
  cases refused with
  | some => exact ⟨h₁.2, .inl h₁.1⟩
  | none =>
    apply always_bind.mpr
    refine (roundTrip_settles call.fuel h₁.2).mono fun result w₂ h₂ => ?_
    cases result with
    | ok =>
      refine ⟨h₂.1, ?_⟩
      rcases h₂.2 with htree | ⟨-, hstale | ⟨_, heq, herror, hserved⟩⟩
      · exact .inl (htree.trans h₁.1)
      · cases hstale
      · cases heq
        exact .inr (.inr (value_granted hdecodes herror hserved))
    | error =>
      dsimp only [afterError]
      rcases h₂.2 with htree | ⟨-, hstale | ⟨_, heq, -⟩⟩
      · split
        · exact ⟨h₂.1, .inl (htree.trans h₁.1)⟩
        · intro _ w₃ hclosed
          cases hclosed.1
          exact ⟨h₂.1, htree.trans h₁.1⟩
      · cases hstale
        exact ⟨h₂.1, .inr (.inl rfl)⟩
      · cases heq

theorem run_concludes (hdecodes : call.Decodes server) (hfresh : w.Fresh) :
    Always (Keeps server) (Concludes w) (call.run G apiKey) w := by
  apply always_bind.mpr
  refine (turn_concludes hdecodes hfresh).mono fun first w₁ h₁ => ?_
  cases first with
  | inl => exact h₁.2
  | inr =>
    apply always_bind.mpr
    refine (turn_concludes hdecodes h₁.1).mono fun second w₂ h₂ => ?_
    have htree : w₁.tree = w.tree := h₁.2
    cases second with
    | inl => exact h₂.2.imp_left fun h => h.trans htree
    | inr => exact .inl (h₂.2.trans htree)

end Effects

/-- If no connection is lost between the execution of a request and its answer, and the client
can read what the server answers, then an error of `Create`, `Write` or `Remove` other than that
of a timeout means that the call changed nothing. -/
theorem error_means_no_effect (server : Server σ) (G : Codec Node) (apiKey : String)
    (mutation : Mutation) (fuel : Nat) {w w' : World σ} {errno : Errno}
    (hdecodes : (mutation.call G fuel).Decodes server) (hfresh : w.Fresh)
    (hran : Ran (Keeps server) ((mutation.call G fuel).run G apiKey) w (.error errno) w')
    (herrno : errno ≠ .estale) : w'.tree = w.tree := by
  rcases (run_concludes hdecodes hfresh).ran hran with htree | hstale | ⟨out, hout⟩
  · exact htree
  · cases hstale
    exact absurd rfl herrno
  · cases hout

/-! A server whose tree is one file or none. -/

/-- `vfs/create` refuses a file that is there. -/
def oneFile : Server (Option String) where
  serve tree method _ :=
    if method = "vfs/create" then
      match tree with
      | some _ => (tree, .error ⟨-32041, "exists", []⟩)
      | none => (some "", .ok [])
    else (tree, .ok [])
  refused tree method params error h := by
    cases tree with
    | some file => split <;> rfl
    | none => split at h <;> cases h
  auth _ _ := rfl

def plainJson : Codec Unit where
  marshal _ _ _ := some []
  authenticated _ := true
  node _ := some ()

def createFile : Call Unit := (Mutation.create "/f" "").call plainJson 1

/-- A connection on which one request was answered. -/
def idle (tree : Option String) : World (Option String) := ⟨tree, true, false, 1, []⟩

/-- A file that is there is not created again. -/
theorem refused_create_no_effect :
    ∃ w', Ran (Keeps oneFile) (createFile.run plainJson "key") (idle (some "a")) (.error .eexist) w'
      ∧
      w'.tree = some "a" := by
  have hdecodes : createFile.Decodes oneFile := by
    intro into hinto _ _ _
    cases hinto
    exact .inr rfl
  have hran : Ran (Keeps oneFile) (createFile.run plainJson "key") (idle (some "a"))
      (.error .eexist) ⟨some "a", true, false, 2, []⟩ := by
    refine .call ⟨.connected _, trivial⟩ ?_
    refine .call ⟨.nextId _, trivial⟩ ?_
    refine .call ⟨.arrived _ _ _ _ none, fun _ => ⟨rfl, .inl rfl⟩⟩ ?_
    refine .call ⟨.frame 2 [] [] rfl rfl, fun _ _ herror => nomatch herror⟩ ?_
    exact .ret _ _
  have hfresh : (idle (some "a")).Fresh := List.forall_mem_nil _
  exact ⟨_, hran, error_means_no_effect oneFile plainJson "key" (.create "/f" "") 1 hdecodes
    hfresh hran (by decide)⟩

/-- The connection is lost when the file was created and before the answer came; the second
request is refused, since the file is there. -/
theorem create_refused_after_effect :
    Ran (Does oneFile) (createFile.run plainJson "key") (idle none) (.error .eexist)
      ⟨some "", true, false, 2, []⟩ := by
  refine .call (.connected _) ?_
  refine .call (.nextId _) ?_
  refine .call (.arrived _ _ _ _ none) ?_
  refine .call (.failed _ 2 .eof false) ?_
  -- The connection is dropped, a new one is made and the client logs in.
  refine .call (.closed _) ?_
  refine .call (.connected _) ?_
  refine .call (.dialed _) ?_
  refine .call (.nextId _) ?_
  refine .call (.arrived _ _ _ _ none) ?_
  refine .call (.frame 1 [] [] rfl rfl) ?_
  -- The request is sent again.
  refine .call (.nextId _) ?_
  refine .call (.arrived _ _ _ _ none) ?_
  refine .call (.frame 2 [] [] rfl rfl) ?_
  exact .ret _ _

end NoizuMcp.Fuse
