import Sesh.Endpoint
import Sesh.Loop
import Sesh.Main

/-!
# Authentication

A task dials its host with a password and, if there is one that can be read,
a key (`batch/ssh.go`). How these are used is up to the client of the SSH
library the program brings with it (`ssh/client_auth.go`): it begins with the
method `none`, and as long as the server refuses, goes on with the first
method of its list that was not tried yet and that the server says can
continue. When there is none left, the error names the methods that were
tried, in the order of a map.

If that error says `none` and `publickey`, the task dials again, with the
password alone. This never helps. The password stands first in both lists,
so the two dials make the same requests until the first of them tries
something else than the password, and a server whose replies depend on the
requests alone answers them in the same way. What the second dial comes to is
therefore what the first one came to, or an error
(`dial_singleton_cases`), and the task has a connection exactly where its
first dial has one (`retry_never_helps`).

Packets are modelled as far as the client tells them apart. A server may
send more packets than it was asked for, or none: what is not read yet waits
in the connection, and a client that has nothing to read waits for ever,
unless the connection is closed.
-/

namespace Ssh

/-- **What a call on a connection comes to**: a result, an error, or nothing,
where it waits for an answer that is never sent. -/
inductive Outcome (α : Type) where
  | ok (a : α)
  | error (err : GoString)
  | waits
  deriving DecidableEq, Repr

/-- What follows a call that returned. -/
def Outcome.bind {α β : Type} : Outcome α → (α → Outcome β) → Outcome β
  | .ok a, f => f a
  | .error err, _ => .error err
  | .waits, _ => .waits

/-! ## Packets and connections -/

/-- What the client sends. -/
inductive Request
  | service
  | none (user : GoString)
  | password (user secret : GoString)
  /-- The question whether a key is acceptable. -/
  | query (user algo key : GoString)
  | signed (user algo key sig : GoString)
  deriving DecidableEq, Repr

/-- What the server sends, each with what `Unmarshal` makes of it. -/
inductive Packet
  | serviceAccept (err : Option GoString)
  | banner
  | failure (msg : Except GoString (List GoString))
  | success
  | disconnect
  | pubKeyOk (msg : Except GoString (GoString × GoString))
  /-- Any other type of message. -/
  | other (tag : ℕ)

/-- The type of a message. -/
def Packet.tag : Packet → ℕ
  | .serviceAccept _ => 6
  | .banner => 53
  | .failure _ => 51
  | .success => 52
  | .disconnect => 1
  | .pubKeyOk _ => 60
  | .other tag => tag

def Packet.isBanner : Packet → Bool
  | .banner => true
  | _ => false

/-- **A server whose replies are a function of the requests** made so far on
the connection. -/
structure Server where
  /-- The error of `net.Dial`, if it fails. -/
  dial : Option GoString
  /-- The error of the key exchange, if it fails. -/
  handshake : Option GoString
  /-- The packets sent in reply to the last request. -/
  reply : List Request → List Packet
  /-- The error of a client that reads on, if the connection is closed. -/
  closed : List Request → Option GoString
  /-- The error of a client that writes, if the connection is closed. -/
  broken : List Request → Option GoString

/-- **A connection**: the requests so far, and the packets not read yet. -/
structure Conn where
  sent : List Request
  inbox : List Packet

namespace Conn

variable (srv : Server)

/-- `writePacket`. -/
def write (c : Conn) (m : Request) : Outcome Conn :=
  match srv.broken c.sent with
  | some err => .error err
  | none => .ok ⟨c.sent ++ [m], c.inbox ++ srv.reply (c.sent ++ [m])⟩

/-- `readPacket`. -/
def read (c : Conn) : Outcome (Packet × Conn) :=
  match c.inbox with
  | p :: ps => .ok (p, { c with inbox := ps })
  | [] =>
    match srv.closed c.sent with
    | some err => .error err
    | none => .waits

/-- The loops that read a reply and pass over banners. -/
def readReply (c : Conn) : Outcome (Packet × Conn) :=
  read srv { c with inbox := c.inbox.dropWhile Packet.isBanner }

end Conn

/-! ## Methods -/

/-- `unexpectedMessageError`. -/
def unexpectedMessageError (expected got : ℕ) : GoString :=
  "ssh: unexpected message type ".toList ++ showNat got ++ " (expected ".toList
    ++ showNat expected ++ ")".toList

/-- A key: its algorithm, its public part, and what it signs. -/
structure Signer where
  algo : GoString
  key : GoString
  sign : Except GoString GoString

/-- `AuthMethod`. -/
inductive AuthMethod
  | none
  | password (secret : GoString)
  | publicKeys (signers : List Signer)

/-- The name of a method. -/
def AuthMethod.method : AuthMethod → GoString
  | .none => "none".toList
  | .password _ => "password".toList
  | .publicKeys _ => "publickey".toList

/-- What a method returns: whether it succeeded, and the methods that can
continue, where the slice is not nil. -/
structure AuthReply where
  ok : Bool
  methods : Option (List GoString)
  conn : Conn

section

variable (srv : Server) (user : GoString)

/-- `handleAuthResponse`. -/
def handleAuthResponse (c : Conn) : Outcome AuthReply :=
  (c.readReply srv).bind (fun r =>
    match r.1 with
    | .failure (.ok methods) => .ok ⟨false, some methods, r.2⟩
    | .failure (.error err) => .error err
    | .success => .ok ⟨true, none, r.2⟩
    | .disconnect => .error "EOF".toList
    | p => .error (unexpectedMessageError 52 p.tag))

/-- `confirmKeyAck`. -/
def confirmKeyAck (signer : Signer) (c : Conn) : Outcome (Bool × Conn) :=
  (c.readReply srv).bind (fun r =>
    match r.1 with
    | .pubKeyOk (.ok msg) => .ok (decide (msg = (signer.algo, signer.key)), r.2)
    | .pubKeyOk (.error err) => .error err
    | .failure _ => .ok (false, r.2)
    | p => .error (unexpectedMessageError 52 p.tag))

/-- `validateKey`. -/
def validateKey (signer : Signer) (c : Conn) : Outcome (Bool × Conn) :=
  (c.write srv (.query user signer.algo signer.key)).bind (confirmKeyAck srv signer)

/-- The keys the server accepts. -/
def validKeys : List Signer → Conn → Outcome (List Signer × Conn)
  | [], c => .ok ([], c)
  | signer :: signers, c =>
    (validateKey srv user signer c).bind (fun r =>
      (validKeys signers r.2).bind (fun ks =>
        .ok (if r.1 then signer :: ks.1 else ks.1, ks.2)))

/-- The keys are tried, one after the other. -/
def tryKeys : List Signer → Option (List GoString) → Conn → Outcome AuthReply
  | [], methods, c => .ok ⟨false, methods, c⟩
  | signer :: signers, _, c =>
    match signer.sign with
    | .error err => .error err
    | .ok sig =>
      (c.write srv (.signed user signer.algo signer.key sig)).bind (fun c =>
        (handleAuthResponse srv c).bind (fun r =>
          if r.ok then .ok r else tryKeys signers r.methods r.conn))

/-- The method `auth`. -/
def AuthMethod.auth : AuthMethod → Conn → Outcome AuthReply
  | .none, c => (c.write srv (.none user)).bind (handleAuthResponse srv)
  | .password secret, c =>
    (c.write srv (.password user secret)).bind (handleAuthResponse srv)
  | .publicKeys signers, c =>
    (validKeys srv user signers c).bind (fun ks => tryKeys srv user ks.1 Option.none ks.2)

end

/-! ## The client -/

/-- **The order of a map**: the keys, in any order. -/
structure MapOrder where
  keys : List GoString → List GoString
  perm : ∀ l, (keys l).Perm l

/-- `ClientConfig`. -/
structure ClientConfig where
  user : GoString
  auth : List AuthMethod

/-- The error when no method is left. -/
def unableToAuthenticate (tried : List GoString) : GoString :=
  "ssh: unable to authenticate, attempted methods ".toList ++ showStrings tried
    ++ ", no supported methods remain".toList

/-- Where the loop of `clientAuthenticate` is: the method it tries, those it
has tried, the methods that could continue, and the connection. -/
structure AuthState where
  auth : AuthMethod
  tried : List GoString
  lastMethods : List GoString
  conn : Conn

/-- The loop `findNext`: the first method not tried yet that can continue. -/
def findNext (auths : List AuthMethod) (tried methods : List GoString) : Option AuthMethod :=
  auths.find? (fun a => !tried.contains a.method && methods.contains a.method)

/-- The end of a turn in which the method was refused: the next one is tried, or
there is none. -/
def goOn (order : MapOrder) (auths : List AuthMethod) (tried methods : List GoString)
    (c : Conn) : AuthState ⊕ Outcome Conn :=
  match findNext auths tried methods with
  | some a => .inl ⟨a, tried, methods, c⟩
  | none => .inr (.error (unableToAuthenticate (order.keys tried)))

section

variable (srv : Server) (order : MapOrder) (config : ClientConfig)

/-- One turn of the loop of `clientAuthenticate`. -/
def turn (s : AuthState) : AuthState ⊕ Outcome Conn :=
  match s.auth.auth srv config.user s.conn with
  | .error err => .inr (.error err)
  | .waits => .inr .waits
  | .ok r =>
    if r.ok then .inr (.ok r.conn)
    else
      goOn order config.auth (s.tried ++ [s.auth.method])
        (r.methods.getD s.lastMethods) r.conn

/-- The loop begins with the method `none`. -/
def AuthState.start (c : Conn) : AuthState := ⟨.none, [], [], c⟩

/-- `clientAuthenticate`, the loop by as much fuel as it can need. -/
def clientAuthenticate : Outcome Conn :=
  (Conn.write srv ⟨[], []⟩ .service).bind (fun c =>
    (c.read srv).bind (fun r =>
      match r.1 with
      | .serviceAccept none =>
        (Loop.run (turn srv order config) (config.auth.length + 1) (.start r.2)).getD .waits
      | .serviceAccept (some err) => .error err
      | p => .error (unexpectedMessageError 6 p.tag)))

/-- What `NewClientConn` makes of an error. -/
def handshakeFailed (err : GoString) : GoString := "ssh: handshake failed: ".toList ++ err

/-- `ssh.Dial`, to the server at the address. -/
def dial : Outcome Conn :=
  match srv.dial with
  | some err => .error err
  | none =>
    match srv.handshake with
    | some err => .error (handshakeFailed err)
    | none =>
      match clientAuthenticate srv order config with
      | .error err => .error (handshakeFailed err)
      | r => r

end

/-! ## The loop ends -/

/-- How many methods are left after the current one. -/
def AuthState.untried (auths : List AuthMethod) (s : AuthState) : ℕ :=
  auths.countP (fun a => !(s.tried ++ [s.auth.method]).contains a.method)

/-- What is found is one of the methods, was not tried yet, and can
continue. -/
theorem of_findNext {auths : List AuthMethod} {tried methods : List GoString} {a : AuthMethod}
    (h : findNext auths tried methods = some a) :
    a ∈ auths ∧ a.method ∉ tried ∧ a.method ∈ methods := by
  have hfound := List.find?_some h
  refine ⟨List.mem_of_find?_eq_some h, ?_⟩
  simpa using hfound

/-- A method that is found was not tried, and is then. -/
theorem untried_of_findNext {auths : List AuthMethod} {tried methods : List GoString}
    {a : AuthMethod} (h : findNext auths tried methods = some a) :
    auths.countP (fun b => !(tried ++ [a.method]).contains b.method)
      < auths.countP (fun b => !tried.contains b.method) := by
  obtain ⟨hauth, hnew, -⟩ := of_findNext h
  have hmono : ∀ l : List AuthMethod,
      l.countP (fun b => !(tried ++ [a.method]).contains b.method)
        ≤ l.countP (fun b => !tried.contains b.method) := by
    refine fun l => List.countP_mono_left fun b _ hb => ?_
    have hboth : b.method ∉ tried ∧ b.method ≠ a.method := by simpa using hb
    simpa using hboth.1
  obtain ⟨l, r, rfl⟩ := List.append_of_mem hauth
  rw [List.countP_append, List.countP_append, List.countP_cons_of_neg (by simp),
    List.countP_cons_of_pos (by simpa using hnew)]
  have hl := hmono l
  have hr := hmono r
  omega

/-- **What a turn can do**: it ends the loop, in a way that does not depend
on the methods there are, or the method was refused. -/
theorem turn_cases (srv : Server) (user : GoString) (s : AuthState) :
    (∃ r, ∀ order auths, turn srv order ⟨user, auths⟩ s = .inr r)
      ∨ ∃ methods c, ∀ order auths, turn srv order ⟨user, auths⟩ s
        = goOn order auths (s.tried ++ [s.auth.method]) methods c := by
  cases h : s.auth.auth srv user s.conn with
  | error err => exact Or.inl ⟨.error err, fun order auths => by simp only [turn, h]⟩
  | waits => exact Or.inl ⟨.waits, fun order auths => by simp only [turn, h]⟩
  | ok r =>
    cases hok : r.ok with
    | true =>
      exact Or.inl ⟨.ok r.conn, fun order auths => by simp only [turn, h, hok, if_true]⟩
    | false =>
      refine Or.inr ⟨r.methods.getD s.lastMethods, r.conn, fun order auths => ?_⟩
      simp only [turn, h, hok, Bool.false_eq_true, if_false]

/-- A turn that goes on found a method. -/
theorem findNext_of_turn {srv : Server} {order : MapOrder} {config : ClientConfig}
    {s s' : AuthState} (h : turn srv order config s = .inl s') :
    s'.tried = s.tried ++ [s.auth.method]
      ∧ ∃ methods, findNext config.auth s'.tried methods = some s'.auth := by
  rcases turn_cases srv config.user s with ⟨r, hr⟩ | ⟨methods, c, hm⟩
  · have hturn := (hr order config.auth).symm.trans h
    cases hturn
  · have hturn := (hm order config.auth).symm.trans h
    unfold goOn at hturn
    split at hturn
    · rename_i a ha
      obtain rfl := Sum.inl.inj hturn
      exact ⟨rfl, methods, ha⟩
    · cases hturn

/-- **The loop ends**, and more fuel makes no difference. -/
theorem exists_authLoop (srv : Server) (order : MapOrder) (config : ClientConfig) (c : Conn) :
    ∃ r, ∀ fuel, config.auth.length < fuel →
      Loop.run (turn srv order config) fuel (.start c) = some r := by
  have hgo : ∀ s s' : AuthState, True → turn srv order config s = .inl s' →
      True ∧ s'.untried config.auth < s.untried config.auth := by
    intro s s' _ hturn
    obtain ⟨htried, methods, hnext⟩ := findNext_of_turn hturn
    have hlt := untried_of_findNext hnext
    rw [htried] at hlt
    refine ⟨trivial, ?_⟩
    rw [AuthState.untried, htried]
    exact hlt
  obtain ⟨r, hr, -⟩ := Loop.exists_run (turn srv order config) (fun _ => True) (fun _ => True)
    (AuthState.untried config.auth) hgo (fun _ _ _ _ => trivial) (s := .start c) trivial
  refine ⟨r, fun fuel hfuel => hr fuel (Nat.lt_of_le_of_lt ?_ hfuel)⟩
  exact List.countP_le_length

/-! ## The password alone -/

/-- A single method is not found again. -/
theorem findNext_singleton_of_mem {a : AuthMethod} {tried : List GoString}
    (h : a.method ∈ tried) (methods : List GoString) : findNext [a] tried methods = none := by
  rw [findNext, List.find?_cons_of_neg (by simpa using fun hn => absurd h hn)]
  rfl

/-- The first method of a list is found where it is found alone. -/
theorem findNext_cons_of_singleton {a b : AuthMethod} {tried methods : List GoString}
    (h : findNext [a] tried methods = some b) (auths : List AuthMethod) :
    findNext (a :: auths) tried methods = some b := by
  rw [findNext, List.find?_cons] at h ⊢
  split at h
  · exact h
  · cases h

/-- **The loop with one method does what it does with more after it, or ends
with an error.** -/
theorem run_singleton_cases (srv : Server) (order order' : MapOrder) (user : GoString)
    (a : AuthMethod) (auths : List AuthMethod) (c : Conn) (fuel : ℕ) :
    Loop.run (turn srv order' ⟨user, [a]⟩) 2 (.start c)
        = Loop.run (turn srv order ⟨user, a :: auths⟩) (fuel + 2) (.start c)
      ∨ ∃ err, Loop.run (turn srv order' ⟨user, [a]⟩) 2 (.start c) = some (.error err) := by
  rcases turn_cases srv user (.start c) with ⟨r, hr⟩ | ⟨methods, c₁, hm⟩
  · refine Or.inl ?_
    rw [Loop.run_of_inr (hr order' [a]), Loop.run_of_inr (hr order (a :: auths))]
  · have hone := hm order' [a]
    have hmore := hm order (a :: auths)
    unfold goOn at hone hmore
    cases hnext : findNext [a] (_ ++ [_]) methods with
    | none =>
      rw [hnext] at hone
      exact Or.inr ⟨_, Loop.run_of_inr hone 1⟩
    | some b =>
      obtain rfl : b = a := List.mem_singleton.mp (of_findNext hnext).1
      rw [hnext] at hone
      rw [findNext_cons_of_singleton hnext auths] at hmore
      rw [Loop.run_of_inl hone, Loop.run_of_inl hmore]
      -- both try the method, in the same state
      rcases turn_cases srv user _ with ⟨r, hr⟩ | ⟨methods', c₂, hm'⟩
      · exact Or.inl ((Loop.run_of_inr (hr order' [b]) 0).trans
          (Loop.run_of_inr (hr order (b :: auths)) fuel).symm)
      · have htwo := hm' order' [b]
        have hmem : b.method ∈ (AuthState.start c).tried ++ [(AuthState.start c).auth.method]
            ++ [b.method] := List.mem_append_right _ List.mem_cons_self
        rw [goOn, findNext_singleton_of_mem hmem] at htwo
        exact Or.inr ⟨_, Loop.run_of_inr htwo 0⟩

/-- The same of the phase of authentication. -/
theorem clientAuthenticate_singleton_cases (srv : Server) (order order' : MapOrder)
    (user : GoString) (a : AuthMethod) (auths : List AuthMethod) :
    clientAuthenticate srv order' ⟨user, [a]⟩ = clientAuthenticate srv order ⟨user, a :: auths⟩
      ∨ ∃ err, clientAuthenticate srv order' ⟨user, [a]⟩ = .error err := by
  unfold clientAuthenticate
  cases Conn.write srv ⟨[], []⟩ .service with
  | error err => exact Or.inl rfl
  | waits => exact Or.inl rfl
  | ok c =>
    simp only [Outcome.bind]
    cases c.read srv with
    | error err => exact Or.inl rfl
    | waits => exact Or.inl rfl
    | ok r =>
      dsimp only
      split
      · rcases run_singleton_cases srv order order' user a auths r.2 auths.length with h | ⟨err, h⟩
        · exact Or.inl (congrArg (Option.getD · .waits) h)
        · exact Or.inr ⟨err, congrArg (Option.getD · .waits) h⟩
      · exact Or.inl rfl
      · exact Or.inl rfl

/-- **A dial with one method comes to what it comes to with more after it, or
to an error.** -/
theorem dial_singleton_cases (srv : Server) (order order' : MapOrder) (user : GoString)
    (a : AuthMethod) (auths : List AuthMethod) :
    dial srv order' ⟨user, [a]⟩ = dial srv order ⟨user, a :: auths⟩
      ∨ ∃ err, dial srv order' ⟨user, [a]⟩ = .error err := by
  unfold dial
  split
  · exact Or.inl rfl
  · split
    · exact Or.inl rfl
    · rcases clientAuthenticate_singleton_cases srv order order' user a auths with h | ⟨err, h⟩
      · rw [h]
        exact Or.inl rfl
      · rw [h]
        exact Or.inr ⟨_, rfl⟩

end Ssh

/-! ## The task dials -/

namespace Batch.Task

open Ssh

variable (world : GoString → Server) (getkey : GoString → Except GoString Signer)
  (first second : MapOrder) (task : Task)

/-- The methods of the first dial. A key file that gives no key is passed
over. -/
def auths : List AuthMethod :=
  .password task.password
    :: if task.keyfile = [] then []
      else
        match getkey task.keyfile with
        | .ok key => [.publicKeys [key]]
        | .error _ => []

/-- The address that is dialled. -/
def address : GoString := task.host ++ ':' :: task.port

/-- The first dial. -/
def firstDial : Outcome Conn :=
  dial (world task.address) first ⟨task.user, task.auths getkey⟩

/-- The dial with the password alone. -/
def secondDial : Outcome Conn :=
  dial (world task.address) second ⟨task.user, [.password task.password]⟩

/-- Whether an error of the first dial makes the task dial again. -/
def retries (err : GoString) : Bool :=
  task.password ≠ [] && Strings.contains err
    "unable to authenticate, attempted methods [none publickey]".toList

/-- What `Work` writes when it has no connection. -/
def unableToConnect (err : GoString) : GoString :=
  "unable to connect:  ".toList ++ err ++ ['\n']

/-- **`Work`, up to its connection**, or to what it writes when there is
none. -/
def connect : Outcome Conn :=
  match task.firstDial world getkey first with
  | .error err =>
    if task.retries err then
      match task.secondDial world second with
      | .error err => .error (unableToConnect err)
      | r => r
    else .error (unableToConnect err)
  | r => r

/-- A dial with the password alone fails where the first one did. -/
theorem secondDial_of_error {err : GoString}
    (h : task.firstDial world getkey first = .error err) :
    ∃ err', task.secondDial world second = .error err' := by
  rcases dial_singleton_cases (world task.address) first second task.user
    (.password task.password) (task.auths getkey).tail with hsame | herr
  · exact ⟨err, hsame.trans h⟩
  · exact herr

/-- **Dialling again never helps**: where the first dial fails with the error
that makes a task dial again, the second one fails too, and the task has a
connection exactly where its first dial has it. -/
theorem retry_never_helps (world : GoString → Server)
    (getkey : GoString → Except GoString Signer) (first second : MapOrder) (task : Task) :
    (∀ err, task.firstDial world getkey first = .error err → task.retries err = true →
        ∃ err', task.secondDial world second = .error err')
      ∧ ∀ conn, task.connect world getkey first second = .ok conn
        ↔ task.firstDial world getkey first = .ok conn := by
  refine ⟨fun err h _ => task.secondDial_of_error world getkey first second h, fun conn => ?_⟩
  unfold connect
  cases h : task.firstDial world getkey first with
  | ok c => exact Iff.rfl
  | waits => exact Iff.rfl
  | error err =>
    obtain ⟨err', h'⟩ := task.secondDial_of_error world getkey first second h
    dsimp only
    rw [h']
    split
    · exact ⟨nofun, nofun⟩
    · exact ⟨nofun, nofun⟩

/-- A server that offers keys only, and accepts none. -/
def keysOnly : Server where
  dial := none
  handshake := none
  reply reqs :=
    if reqs.getLast? = some .service then [.serviceAccept none]
    else [.failure (.ok ["publickey".toList])]
  closed _ := none
  broken _ := none

/-- A map that lists its keys as they were put in. -/
def inOrder : MapOrder := ⟨id, fun _ => List.Perm.refl _⟩

/-- A task with a password and a key file. -/
def keyTask : Task :=
  newTask "web".toList "root".toList "secret".toList "id_rsa".toList "date".toList []

/-- A key that can be read. -/
def rsaKey (_ : GoString) : Except GoString Signer :=
  .ok ⟨"ssh-rsa".toList, "AAAA".toList, .ok "sig".toList⟩

/-- The second dial is made, and it fails. -/
theorem retry_fails_keysOnly :
    (∃ err, keyTask.firstDial (fun _ => keysOnly) rsaKey inOrder = .error err
        ∧ keyTask.retries err = true)
      ∧ ∃ err', keyTask.secondDial (fun _ => keysOnly) inOrder = .error err' := by
  have hfirst : keyTask.firstDial (fun _ => keysOnly) rsaKey inOrder
      = .error (handshakeFailed (unableToAuthenticate ["none".toList, "publickey".toList])) := rfl
  have hretries : keyTask.retries
      (handshakeFailed (unableToAuthenticate ["none".toList, "publickey".toList])) = true := by
    decide +kernel
  exact ⟨⟨_, hfirst, hretries⟩,
    (retry_never_helps (fun _ => keysOnly) rsaKey inOrder inOrder keyTask).1 _ hfirst hretries⟩

end Batch.Task
