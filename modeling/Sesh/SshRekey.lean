import Sesh.SshHandshake

/-!
# Nothing is lost when keys change

Both sides of `Ssh.duo` keep their place in the order of packets through every
step of every goroutine. What a step of the loop can do is said once
(`Duet.Looped`). There is one lemma for each of these steps that writes, one for
those that do not, and one for each thing that another goroutine does, all with
the same conclusion `Duet.Kept`, and `Duet.Inv` follows for both sides and the
wire between them.

So the transports survive any number of key exchanges (`rekey_safe`), packets
are held back during each (`rekey_order`) and arrive unchanged
(`rekey_delivers`), and the session ID stays that of the first
(`rekey_session`).

A login need not survive them. Each key exchange hands `NewKeys` on, and the
handshake takes one of them for the end of the first; the next one is ignored by
`mux.loop`, but a login that is handed it gives up. A main goroutine that begins
when its loop has been through a key exchange begins another one, which is
enough.
-/

namespace Ssh

/-! ## What is handed on -/

namespace Handed

variable {epoch : ℕ} {main : MainPc} {replying : Option Bytes}
  {waiting received incoming held got : List Bytes} {p : Bytes}

/-- Who was told of a change of keys is behind one. -/
theorem told_le (h : Handed epoch main replying waiting received incoming held got) :
    main.told ≤ epoch := by
  refine h.told.trans ?_
  rw [← h.newKeys, newKeysIn_append]
  exact Nat.le_add_right _ _

/-- Another packet is read. It comes behind the first change of keys. -/
theorem read_plain (h : Handed epoch main replying waiting received incoming [] got)
    (h₀ : 0 < epoch) (hp : p.head? ≠ some msgNewKeys) :
    Handed epoch main replying waiting received incoming [p] (got ++ [p]) := by
  have hcount := h.newKeys
  have hrecord := h.record
  rw [List.append_nil] at hcount hrecord
  refine ⟨h.waiting, h.replying, h.refused, h.told, fun hmain => ?_, ?_, ?_⟩
  · obtain ⟨hrec, -, hpos⟩ := h.opening hmain
    have hfirst := hpos h₀
    rw [List.append_nil] at hfirst
    refine ⟨hrec, fun h₁ => absurd h₁ (Nat.ne_of_gt h₀), fun _ => ?_⟩
    rw [List.head?_append, hfirst]
    rfl
  · have hnone : newKeysIn [p] = 0 := by
      rw [newKeysIn, List.countP_singleton, if_neg (by rw [decide_eq_true_eq]; exact hp)]
    rw [← List.append_assoc, newKeysIn_append, hcount, hnone, Nat.add_zero]
  · rw [← List.append_assoc, useful_append, hrecord, useful_append]

/-- A key exchange is over, which is news. -/
theorem finish (h : Handed epoch main replying waiting received incoming [] got) :
    Handed (epoch + 1) main replying waiting received incoming [[msgNewKeys]] got := by
  have hcount := h.newKeys
  have hrecord := h.record
  rw [List.append_nil] at hcount hrecord
  refine ⟨h.waiting, fun p hp => ⟨(h.replying p hp).1, Nat.succ_pos epoch⟩, h.refused, h.told,
    fun hmain => ?_, ?_, ?_⟩
  · obtain ⟨hrec, hzero, hpos⟩ := h.opening hmain
    rw [List.append_nil] at hzero hpos
    refine ⟨hrec, fun h₀ => absurd h₀ (Nat.succ_ne_zero epoch), fun _ => ?_⟩
    by_cases h₀ : epoch = 0
    · rw [hzero h₀]
      rfl
    · rw [List.head?_append, hpos (Nat.pos_of_ne_zero h₀)]
      rfl
  · rw [← List.append_assoc, newKeysIn_append, hcount]
    rfl
  · rw [← List.append_assoc, useful_append, hrecord]
    exact List.append_nil _

/-- A packet is skipped. -/
theorem skip (h : Handed epoch main replying waiting received incoming [p] got)
    (hp : p.head? = some msgIgnore ∨ p.head? = some msgDebug) :
    Handed epoch main replying waiting received incoming [] got := by
  have hnew : p.head? ≠ some msgNewKeys := by
    rcases hp with hp | hp
    · rw [hp]
      decide
    · rw [hp]
      decide
  refine ⟨h.waiting, h.replying, h.refused, h.told, fun hmain => ?_, ?_, ?_⟩
  · obtain ⟨hrec, hzero, hpos⟩ := h.opening hmain
    refine ⟨hrec, fun h₀ => ?_, fun h₀ => ?_⟩
    · exact absurd (hzero h₀) (List.append_ne_nil_of_right_ne_nil _ (List.cons_ne_nil p []))
    · have hfirst := hpos h₀
      rw [List.append_nil]
      cases incoming with
      | nil =>
        rw [show p = [msgNewKeys] from Option.some.inj hfirst] at hnew
        exact absurd rfl hnew
      | cons q qs => exact hfirst
  · have hcount := h.newKeys
    have hnone : newKeysIn [p] = 0 := by
      rw [newKeysIn, List.countP_singleton, if_neg (by rw [decide_eq_true_eq]; exact hnew)]
    rw [← List.append_assoc, newKeysIn_append, hnone] at hcount
    rw [List.append_nil]
    exact hcount
  · have hrecord := h.record
    have hnone : useful [p] = [] := by
      rw [useful, List.filter_cons, if_neg, List.filter_nil]
      rcases hp with hp | hp
      · simp [hp]
      · simp [hp]
    rw [← List.append_assoc, useful_append, hnone, List.append_nil] at hrecord
    rw [List.append_nil]
    exact hrecord

/-- A packet is put into `incoming`. -/
theorem push (h : Handed epoch main replying waiting received incoming [p] got) :
    Handed epoch main replying waiting received (incoming ++ [p]) [] got := by
  refine ⟨h.waiting, h.replying, h.refused, h.told, fun hmain => ?_, ?_, ?_⟩
  · rw [List.append_nil]
    exact h.opening hmain
  · rw [List.append_nil]
    exact h.newKeys
  · rw [List.append_nil]
    exact h.record

/-- The first packet of `incoming` is taken. A main goroutine that awaits the
first change of keys finds it. -/
theorem take (h : Handed epoch main replying waiting received (p :: incoming) held got)
    (hmain : main.takes = true) :
    Handed epoch (main.took p) replying waiting (received ++ [p]) incoming held got := by
  have hrecord : useful ((received ++ [p]) ++ (incoming ++ held)) = useful got := by
    rw [List.append_assoc]
    exact h.record
  have hcount : newKeysIn ((received ++ [p]) ++ (incoming ++ held)) = epoch := by
    rw [List.append_assoc]
    exact h.newKeys
  have htold := h.told
  have happend := newKeysIn_append received [p]
  cases main with
  | awaiting =>
    obtain ⟨-, hzero, hpos⟩ := h.opening rfl
    have hepoch : 0 < epoch := Nat.pos_of_ne_zero fun h₀ => List.cons_ne_nil _ _ (hzero h₀)
    obtain rfl : p = [msgNewKeys] := Option.some.inj (hpos hepoch)
    have hone : newKeysIn [[msgNewKeys]] = 1 := rfl
    refine ⟨fun q hq => absurd (h.waiting q hq).2 nofun, h.replying, nofun, ?_, nofun, hcount,
      hrecord⟩
    show 1 ≤ newKeysIn (received ++ [[msgNewKeys]])
    omega
  | login =>
    have hlogin : 1 ≤ newKeysIn received := htold
    rw [MainPc.took]
    split
    · rename_i hnew
      have hone : newKeysIn [p] = 1 := by
        rw [newKeysIn, List.countP_singleton, if_pos (by rw [decide_eq_true_eq]; exact hnew)]
      refine ⟨fun q hq => absurd (h.waiting q hq).2 nofun, h.replying, nofun, ?_, nofun, hcount,
        hrecord⟩
      show 2 ≤ newKeysIn (received ++ [p])
      omega
    · exact ⟨h.waiting, h.replying, nofun, htold.trans (by omega), nofun, hcount, hrecord⟩
  | ready => exact ⟨h.waiting, h.replying, nofun, htold.trans (by omega), nofun, hcount, hrecord⟩
  | opening => cases hmain
  | refused err => cases hmain
  | failed => cases hmain

end Handed

/-! ## The steps of the loop -/

namespace Duet

variable {D : Duet} {r : Role} {s s' : Party} {rand : Rand} {inp rest out : Bytes}
  {accepted : List Bytes} {sent : ℕ} {c' : ConnectionState}

/-- **What a step of one side keeps**: its own invariant, the place of its
reader and that of its writer. -/
structure Kept (D : Duet) (r : Role) (s : Party) (accepted : List Bytes) (sent : ℕ)
    (c' : ConnectionState) (s' : Party) (rest out : Bytes) : Prop where
  loc : D.Local r s'
  reads : D.Carries r.peer s'.recv s'.got s'.reader rest accepted sent c'
  sends : D.Sends r s.accepted s.sent s.writer out s'.accepted s'.sent s'.writer

/-- What a packet that was read is. -/
theorem Kex.get_cases (hD : D.Compatible) (h : D.Kex r s)
    (hin : D.Carries r.peer s.recv s.got s.reader inp accepted sent c')
    (hpc : s.recv % 3 = 2 → s.loop = .awaitNewKeys) :
    (s.get inp = none ∧ s.recv = sent ∧ accepted = s.got)
    ∨ (∃ rest c, s.get inp = some (.ok (D.script r.peer s.recv) rest { s with reader := c })
        ∧ c.pendingKeyChange = (if s.recv % 3 = 2 then none else s.reader.pendingKeyChange)
        ∧ D.Carries r.peer (s.recv + 1) s.got c rest accepted sent c')
    ∨ ∃ p rest c, Plain p ∧ s.recv % 3 = 0 ∧ 0 < s.recv
        ∧ s.get inp = some (.ok p rest { s with reader := c })
        ∧ c.pendingKeyChange = s.reader.pendingKeyChange
        ∧ D.Carries r.peer s.recv (s.got ++ [p]) c rest accepted sent c' := by
  have hpend : s.recv % 3 = 2 →
      s.reader.pendingKeyChange = some (D.keysFrom r.peer (s.recv / 3 + 1)) := by
    intro h₂
    have hloop := hpc h₂
    have hreader := h.reader
    rw [hloop] at hreader
    have hrecv : s.recv = 3 * s.epoch + 2 := by
      rw [Party.recv, hloop]
      rfl
    rw [hreader, hrecv, show (3 * s.epoch + 2) / 3 = s.epoch by omega]
    rfl
  rw [Party.get]
  rcases hD.read_cases hin hpend with ⟨hread, hall⟩ | ⟨rest, c, hread, hc⟩
    | ⟨p, rest, c, hp, h₃, h₀, hread, hc⟩
  · rw [hread]
    exact .inl ⟨rfl, hall⟩
  · rw [hread]
    exact .inr (.inl ⟨rest, c, rfl, hc⟩)
  · rw [hread]
    exact .inr (.inr ⟨p, rest, c, hp, h₃, h₀, rfl, hc⟩)

/-- Where a side stands that has written the second packet of a key exchange. -/
def exchanged (D : Duet) (e : ℕ) : Role → LoopPc
  | .client => .awaitReply (D.negotiated .client e)
  | .server => .agreed D.algs (D.outcome e).1

section Looped

variable (D : Duet) (r : Role) (s : Party) (inp : Bytes) (accepted : List Bytes) (sent : ℕ)
  (c' : ConnectionState)

/-- **What a step of the loop can do** at a side that keeps to the script: the
side after it, what is left to read, and what was written. -/
inductive Looped : Party → Bytes → Bytes → Prop
  | turn (hpc : s.loop = .turn) : Looped (s.setLoop .reading) inp []
  /-- A key exchange begins, or goes on: a `KexInit` was sent, now or before. -/
  | init (pc : LoopPc) (hpc : (s.loop = .turn ∧ pc = .reading)
        ∨ s.loop = .gotInit (D.script r.peer (3 * s.epoch))
          ∧ pc = .entered (D.script r.peer (3 * s.epoch)))
      (w : ConnectionState) (wr : List Bytes) (m : KexInit) (n : ℕ) (out : Bytes)
      (hkex : D.Kex r (s.setInit w wr m n)) (hepoch : (s.setInit w wr m n).epoch = s.epoch)
      (hsends : D.Sends r s.accepted s.sent s.writer out s.accepted (s.setInit w wr m n).sent w) :
      Looped ((s.setInit w wr m n).setLoop pc) inp out
  /-- A packet between two key exchanges is read. -/
  | read (hpc : s.loop = .reading) (p rest : Bytes) (c : ConnectionState) (n : UInt64)
      (hp : Plain p) (hpos : 0 < s.epoch)
      (hc : c.pendingKeyChange = s.reader.pendingKeyChange)
      (hcar : D.Carries r.peer (3 * s.epoch) (s.got ++ [p]) c rest accepted sent c') :
      Looped { s with reader := c, readSinceKex := n, loop := .deliver p, got := s.got ++ [p] }
        rest []
  /-- The first packet of a key exchange is read. -/
  | readInit (hpc : s.loop = .reading) (rest : Bytes) (c : ConnectionState) (n : UInt64)
      (hc : c.pendingKeyChange = s.reader.pendingKeyChange)
      (hcar : D.Carries r.peer (3 * s.epoch + 1) s.got c rest accepted sent c') :
      Looped { s with
        reader := c
        readSinceKex := n
        loop := .gotInit (D.script r.peer (3 * s.epoch)) } rest []
  /-- The algorithms are settled. -/
  | enter (packet : Bytes) (hpc : s.loop = .entered packet)
      (hsome : s.sentInit.isSome = true) :
      Looped (s.setLoop (.exchanging (D.negotiated r s.epoch))) inp []
  /-- The second packet of a key exchange is written: by a client at once, by a
  server when it has read the client's. -/
  | exchange (n : Negotiated) (hpc : s.loop = .exchanging n) (hsome : s.sentInit.isSome = true)
      (rest out : Bytes) (c w : ConnectionState)
      (hc : c.pendingKeyChange = s.reader.pendingKeyChange)
      (hw : w.pendingKeyChange = s.writer.pendingKeyChange)
      (hcar : D.Carries r.peer ((D.exchanged s.epoch r).recv s.epoch) s.got c rest accepted sent
        c')
      (hsends : D.Sends r s.accepted s.sent s.writer out s.accepted (s.sent + 1) w) :
      Looped { s with
        reader := c
        writer := w
        wrote := s.wrote ++ [D.msg s.epoch r]
        loop := D.exchanged s.epoch r } rest out
  /-- A client reads the reply. -/
  | readReply (n : Negotiated) (hpc : s.loop = .awaitReply n)
      (hsome : s.sentInit.isSome = true) (rest : Bytes) (c : ConnectionState)
      (hc : c.pendingKeyChange = s.reader.pendingKeyChange)
      (hcar : D.Carries r.peer (3 * s.epoch + 2) s.got c rest accepted sent c') :
      Looped { s with reader := c, loop := .agreed D.algs (D.outcome s.epoch).1 } rest []
  /-- The keys for writing are put to use. -/
  | writeNewKeys (algs : Algorithms) (res : KexResult) (hpc : s.loop = .agreed algs res)
      (hsome : s.sentInit.isSome = true) (out : Bytes) (w : ConnectionState)
      (hw : w.pendingKeyChange = none)
      (hsends : D.Sends r s.accepted s.sent s.writer out s.accepted (s.sent + 1) w) :
      Looped { s with
        sessionID := some D.sessionID
        reader := { s.reader with pendingKeyChange := some (D.keysFrom r.peer (s.epoch + 1)) }
        writer := w
        wrote := s.wrote ++ [[msgNewKeys]]
        loop := .awaitNewKeys } inp out
  /-- The keys for reading are put to use, and the key exchange is over. -/
  | readNewKeys (hpc : s.loop = .awaitNewKeys) (hsome : s.sentInit.isSome = true) (rest : Bytes)
      (c : ConnectionState) (hc : c.pendingKeyChange = none)
      (hcar : D.Carries r.peer (3 * s.epoch + 3) s.got c rest accepted sent c') :
      Looped ({ s with reader := c } : Party).finished rest []
  /-- A packet is not handed on, or it is. -/
  | skip (p : Bytes) (hpc : s.loop = .deliver p)
      (hp : p.head? = some msgIgnore ∨ p.head? = some msgDebug) : Looped (s.setLoop .turn) inp []
  | push (p : Bytes) (hpc : s.loop = .deliver p) :
      Looped { s with loop := .turn, incoming := s.incoming ++ [p] } inp []

end Looped

/-- The key exchange under way. -/
theorem Kex.under_way (h : D.Kex r s) (hsome : s.sentInit.isSome = true) :
    s.sentInit = some ((D.peer r).offer s.epoch) ∧ s.kexes - 1 = s.epoch := by
  obtain ⟨m, hm⟩ := Option.isSome_iff_exists.mp hsome
  obtain ⟨rfl, hk⟩ := h.init m hm
  exact ⟨hm, by omega⟩

/-- The loop begins a key exchange, or goes on with one. -/
theorem Kex.looped_init (hD : D.Compatible) (h : D.Kex r s) {pc : LoopPc}
    (hpc : (s.loop = .turn ∧ pc = .reading)
      ∨ s.loop = .gotInit (D.script r.peer (3 * s.epoch))
        ∧ pc = .entered (D.script r.peer (3 * s.epoch)))
    (hs : s.goOn inp (s.sendKexInit (D.peer r) rand) pc = (s', rest, out)) :
    D.Looped r s inp accepted sent c' s' rest out := by
  obtain ⟨o, w, wr, m, n, hsend, hkex, hepoch, hsends⟩ := h.sendKexInit hD rand
  rw [hsend] at hs
  obtain ⟨rfl, rfl, rfl⟩ : (s.setInit w wr m n).setLoop pc = s' ∧ inp = rest ∧ o = out := by
    obtain ⟨h₁, h₂⟩ := Prod.mk.inj hs
    exact ⟨h₁, Prod.mk.inj h₂⟩
  exact .init pc hpc w wr m n o hkex hepoch hsends

/-- The loop reads a packet between two key exchanges, or the first of one. -/
theorem Kex.looped_reading (hD : D.Compatible) (h : D.Kex r s)
    (hin : D.Carries r.peer s.recv s.got s.reader inp accepted sent c') (hpc : s.loop = .reading)
    (hs : s.taking inp (fun s packet rest => (s.seen packet, rest, [])) = some (s', rest, out)) :
    D.Looped r s inp accepted sent c' s' rest out := by
  have hrecv : s.recv = 3 * s.epoch := by
    rw [Party.recv, hpc]
    rfl
  rw [Party.taking] at hs
  rcases h.get_cases hD hin (fun h₂ => by omega) with ⟨hget, -⟩ | ⟨rest', c, hget, hc, hcar⟩
    | ⟨p, rest', c, hp, -, h₀, hget, hc, hcar⟩
  · rw [hget] at hs
    cases hs
  · rw [hget] at hs
    obtain ⟨rfl, rfl, rfl⟩ := Option.some.inj hs
    rw [if_neg (by omega)] at hc
    have hhead := ((hD.script_head r.peer s.recv).2.1).mpr (by omega)
    rw [hrecv] at hcar hhead ⊢
    rw [Party.seen, if_pos hhead]
    exact .readInit hpc _ c _ hc hcar
  · rw [hget] at hs
    obtain ⟨rfl, rfl, rfl⟩ := Option.some.inj hs
    rw [hrecv] at hcar
    rw [Party.seen, if_neg hp.2.1]
    exact .read hpc p _ c _ hp (by omega) hc hcar

/-- The loop settles the algorithms. -/
theorem Kex.looped_entered (hD : D.Compatible) (h : D.Kex r s) {packet : Bytes}
    (hpc : s.loop = .entered packet)
    (hs : s.loopStep D.prim (D.peer r) rand inp = some (s', rest, out)) :
    D.Looped r s inp accepted sent c' s' rest out := by
  have hloop := h.loop
  rw [hpc] at hloop
  obtain ⟨rfl, hsome⟩ := hloop
  have hneg := hD.negotiate_eq r s.epoch
  rw [← script_zero r.peer] at hneg
  rw [Party.loopStep, hpc, (h.under_way hsome).1] at hs
  simp only [hneg] at hs
  rw [if_neg (fun hfollows => Bool.false_ne_true hfollows.1)] at hs
  obtain ⟨rfl, rfl, rfl⟩ := Option.some.inj hs
  exact .enter _ hpc hsome

/-- The second packet of a key exchange is written. -/
theorem Kex.looped_second (hD : D.Compatible) (hsome : s.sentInit.isSome = true)
    {n : Negotiated} (hpc : s.loop = .exchanging n) {c : ConnectionState}
    (hc : c.pendingKeyChange = s.reader.pendingKeyChange) {left : Bytes}
    (hcar : D.Carries r.peer ((D.exchanged s.epoch r).recv s.epoch) s.got c left accepted sent c')
    (hs : ({ s with reader := c } : Party).goOn left
      (({ s with reader := c } : Party).put rand (D.msg s.epoch r)) (D.exchanged s.epoch r)
        = (s', rest, out)) : D.Looped r s inp accepted sent c' s' rest out := by
  have hsent : s.sent = 3 * s.epoch + 1 := by
    rw [Party.sent, if_pos hsome, hpc]
    rfl
  obtain ⟨o, w, hw, hpend, hsends⟩ := hD.write_kex r s.sent s.accepted s.writer
    (fun h₂ => by omega) rand
  rw [if_neg (by omega)] at hpend
  rw [hsent, script_one] at hw
  rw [Party.put, hw] at hs
  obtain ⟨h₁, h₂⟩ := Prod.mk.inj hs
  obtain ⟨rfl, rfl⟩ := Prod.mk.inj h₂
  subst h₁
  exact .exchange n hpc hsome left o c w hc hpend hcar hsends

/-- The loop runs the key exchange algorithm: a client writes, and a server
reads and writes. -/
theorem Kex.looped_exchanging (hD : D.Compatible) (h : D.Kex r s)
    (hin : D.Carries r.peer s.recv s.got s.reader inp accepted sent c') {n : Negotiated}
    (hpc : s.loop = .exchanging n)
    (hs : s.loopStep D.prim (D.peer r) rand inp = some (s', rest, out)) :
    D.Looped r s inp accepted sent c' s' rest out := by
  have hloop := h.loop
  rw [hpc] at hloop
  obtain ⟨rfl, hsome⟩ := hloop
  have hkexes := (h.under_way hsome).2
  have hrecv : s.recv = 3 * s.epoch + 1 := by
    rw [Party.recv, hpc]
    rfl
  obtain ⟨hserver, -, -, -⟩ := hD.outcome_spec s.epoch
  rw [Party.loopStep, hpc] at hs
  have hkex : D.prim.kexAlgoMap (D.negotiated r s.epoch).algs.kex = some D.k := hD.kex
  simp only [hkex] at hs
  cases r with
  | client =>
    rw [hD.client] at hs
    simp only [Bool.false_eq_true, if_false, hkexes] at hs
    rw [hrecv] at hin
    exact Kex.looped_second (r := .client) hD hsome hpc rfl hin (Option.some.inj hs)
  | server =>
    rw [hD.server] at hs
    simp only [if_true, Party.taking] at hs
    rcases h.get_cases hD hin (fun h₂ => by omega) with ⟨hget, -⟩
      | ⟨rest', c, hget, hc, hcar⟩ | ⟨p, rest', c, hp, h₃, -⟩
    · rw [hget] at hs
      cases hs
    · rw [if_neg (by omega)] at hc
      rw [hrecv] at hcar
      have hscript : D.script Role.server.peer s.recv = D.clientMsg s.epoch := by
        rw [hrecv, script_one]
        rfl
      have hkey : (D.peer .server).hostKeyFor (D.negotiated .server s.epoch).algs.hostKey
        = some D.signer := hD.hostKey
      have hserver' : D.k.server ((D.peer .server).secret s.epoch)
          (D.negotiated .server s.epoch).magics D.signer (D.clientMsg s.epoch)
            = .ok (D.outcome s.epoch) := hserver
      rw [hget, hscript] at hs
      simp only [hkey, hkexes, Option.getD_some, hserver', Option.isNone_some,
        Bool.false_eq_true, if_false] at hs
      exact Kex.looped_second (r := .server) hD hsome hpc hc hcar (Option.some.inj hs)
    · omega

/-- A client reads the server's reply. -/
theorem Kex.looped_awaitReply (hD : D.Compatible) (h : D.Kex r s)
    (hin : D.Carries r.peer s.recv s.got s.reader inp accepted sent c') {n : Negotiated}
    (hpc : s.loop = .awaitReply n)
    (hs : s.loopStep D.prim (D.peer r) rand inp = some (s', rest, out)) :
    D.Looped r s inp accepted sent c' s' rest out := by
  have hloop := h.loop
  rw [hpc] at hloop
  obtain ⟨rfl, hsome, rfl⟩ := hloop
  have hkexes := (h.under_way hsome).2
  have hrecv : s.recv = 3 * s.epoch + 1 := by
    rw [Party.recv, hpc]
    rfl
  obtain ⟨-, hclient, -, -⟩ := hD.outcome_spec s.epoch
  have hkex : D.prim.kexAlgoMap (D.negotiated .client s.epoch).algs.kex = some D.k := hD.kex
  rw [Party.loopStep, hpc] at hs
  simp only [hkex, Party.taking] at hs
  rcases h.get_cases hD hin (fun h₂ => by omega) with ⟨hget, -⟩
    | ⟨rest', c, hget, hc, hcar⟩ | ⟨p, rest', c, hp, h₃, -⟩
  · rw [hget] at hs
    cases hs
  · rw [if_neg (by omega)] at hc
    rw [hrecv] at hcar
    have hscript : D.script Role.client.peer s.recv = (D.outcome s.epoch).2 := by
      rw [hrecv, script_one]
      rfl
    have hclient' : D.k.client ((D.peer .client).secret s.epoch)
        (D.negotiated .client s.epoch).magics (D.outcome s.epoch).2
          = .ok (D.outcome s.epoch).1 := hclient
    rw [hget, hscript] at hs
    simp only [hkexes, hclient', hD.trusts] at hs
    obtain ⟨rfl, rfl, rfl⟩ := Option.some.inj hs
    exact .readReply _ hpc hsome _ c hc hcar
  · omega

/-- **The keys of both directions are prepared.** The first hash is the session
ID. -/
theorem Kex.prepareKeyChange_eq (hD : D.Compatible) (h : D.Kex r s) (hnot : s.loop.awaits = false) :
    s.prepareKeyChange D.prim (D.peer r) D.algs (D.outcome s.epoch).1
      = some { s with
          sessionID := some D.sessionID
          reader := { s.reader with pendingKeyChange := some (D.keysFrom r.peer (s.epoch + 1)) }
          writer := { s.writer with pendingKeyChange := some (D.keysFrom r (s.epoch + 1)) } } := by
  have hsid : s.sessionID.getD (D.outcome s.epoch).1.H = D.sessionID := by
    rw [h.sessionID, hnot]
    by_cases h₀ : 0 < s.epoch
    · rw [if_pos (.inl h₀)]
      rfl
    · rw [if_neg (fun hor => hor.elim h₀ nofun), Nat.le_zero.mp (Nat.le_of_not_lt h₀)]
      rfl
  have hkeys := fun r => hD.keysFrom_succ r s.epoch
  have hdirs : (if (D.peer r).isServer then (clientKeys, serverKeys) else (serverKeys, clientKeys))
      = (dirFrom r.peer, dirFrom r) := by
    cases r with
    | client =>
      rw [hD.client]
      rfl
    | server =>
      rw [hD.server]
      rfl
  rw [Party.prepareKeyChange, hsid, hD.algs_r]
  simp only [hdirs, hkeys]

/-- The keys for writing are put to use. -/
theorem Kex.looped_agreed (hD : D.Compatible) (h : D.Kex r s) {algs : Algorithms}
    {res : KexResult} (hpc : s.loop = .agreed algs res)
    (hs : s.loopStep D.prim (D.peer r) rand inp = some (s', rest, out)) :
    D.Looped r s inp accepted sent c' s' rest out := by
  have hloop := h.loop
  rw [hpc] at hloop
  obtain ⟨rfl, rfl, hsome⟩ := hloop
  have hsent : s.sent = 3 * s.epoch + 2 := by
    rw [Party.sent, hpc, if_pos hsome]
    rfl
  have hprepare := h.prepareKeyChange_eq hD (by rw [hpc]; rfl)
  rw [Party.loopStep, hpc] at hs
  simp only [hprepare] at hs
  obtain ⟨o, w, hw, hpend, hsends⟩ := hD.write_kex r s.sent s.accepted
    { s.writer with pendingKeyChange := some (D.keysFrom r (s.epoch + 1)) }
    (fun _ => by rw [hsent, show (3 * s.epoch + 2) / 3 = s.epoch by omega]) rand
  rw [if_pos (by omega)] at hpend
  rw [hsent, script_two] at hw
  rw [Party.put, hw] at hs
  obtain ⟨h₁, h₂⟩ := Prod.mk.inj (Option.some.inj hs)
  obtain ⟨rfl, rfl⟩ := Prod.mk.inj h₂
  subst h₁
  exact .writeNewKeys _ _ hpc hsome o w hpend hsends

/-- **The keys for reading are put to use**, and the key exchange is over. -/
theorem Kex.looped_awaitNewKeys (hD : D.Compatible) (h : D.Kex r s)
    (hin : D.Carries r.peer s.recv s.got s.reader inp accepted sent c')
    (hpc : s.loop = .awaitNewKeys)
    (hs : s.loopStep D.prim (D.peer r) rand inp = some (s', rest, out)) :
    D.Looped r s inp accepted sent c' s' rest out := by
  have hsome := h.loop
  rw [hpc] at hsome
  have hrecv : s.recv = 3 * s.epoch + 2 := by
    rw [Party.recv, hpc]
    rfl
  rw [Party.loopStep, hpc] at hs
  simp only [Party.taking] at hs
  rcases h.get_cases hD hin (fun _ => hpc) with ⟨hget, -⟩
    | ⟨rest', c, hget, hc, hcar⟩ | ⟨p, rest', c, hp, h₃, -⟩
  · rw [hget] at hs
    cases hs
  · rw [if_pos (by omega)] at hc
    rw [hget, hrecv, script_two] at hs
    simp only [List.head?_cons, if_true] at hs
    obtain ⟨rfl, rfl, rfl⟩ := Option.some.inj hs
    rw [hrecv] at hcar
    exact .readNewKeys hpc hsome _ c hc hcar
  · omega

/-- **A step of the loop is one of these.** -/
theorem Kex.looped (hD : D.Compatible) (h : D.Kex r s)
    (hin : D.Carries r.peer s.recv s.got s.reader inp accepted sent c')
    (hs : s.loopStep D.prim (D.peer r) rand inp = some (s', rest, out)) :
    D.Looped r s inp accepted sent c' s' rest out := by
  have hloop := h.loop
  cases hpc : s.loop with
  | turn =>
    rw [Party.loopStep, hpc] at hs
    simp only [] at hs
    split at hs
    · exact h.looped_init hD (.inl ⟨hpc, rfl⟩) (Option.some.inj hs)
    · obtain ⟨rfl, rfl, rfl⟩ := Option.some.inj hs
      exact .turn hpc
  | reading =>
    rw [Party.loopStep, hpc] at hs
    exact h.looped_reading hD hin hpc hs
  | gotInit packet =>
    rw [hpc] at hloop
    obtain rfl : packet = D.script r.peer (3 * s.epoch) := hloop
    rw [Party.loopStep, hpc] at hs
    exact h.looped_init hD (.inr ⟨hpc, rfl⟩) (Option.some.inj hs)
  | entered packet => exact h.looped_entered hD hpc hs
  | exchanging n => exact h.looped_exchanging hD hin hpc hs
  | awaitReply n => exact h.looped_awaitReply hD hin hpc hs
  | agreed algs res => exact h.looped_agreed hD hpc hs
  | awaitNewKeys => exact h.looped_awaitNewKeys hD hin hpc hs
  | deliver p =>
    rw [Party.loopStep, hpc] at hs
    simp only [] at hs
    split at hs
    · rename_i hignored
      obtain ⟨rfl, rfl, rfl⟩ := Option.some.inj hs
      exact .skip p hpc hignored
    · split at hs
      · obtain ⟨rfl, rfl, rfl⟩ := Option.some.inj hs
        exact .push p hpc
      · cases hs
  | skipping n | ended err | crashed =>
    rw [hpc] at hloop
    exact hloop.elim

/-! ## What the steps of the loop keep -/

/-- **A step that writes nothing** keeps what the writer has done. -/
theorem Local.silent (h : D.Local r s) {pc : LoopPc} (hpc : s.loop = pc)
    (hsame : s'.writer = s.writer ∧ s'.sessionID = s.sessionID ∧ s'.sentInit = s.sentInit
      ∧ s'.kexes = s.kexes ∧ s'.wrote = s.wrote ∧ s'.accepted = s.accepted)
    (hsent : ∀ e, s'.loop.sent e = pc.sent e) (hawaits : s'.loop.awaits = pc.awaits)
    (hloop : D.LoopOk r s.epoch s.sentInit.isSome s'.loop)
    (hreader : s'.reader.pendingKeyChange = s.reader.pendingKeyChange)
    (hhanded : Handed s.epoch s'.main s'.replying s'.waiting s'.received s'.incoming
      s'.loop.held s'.got)
    (hreads : D.Carries r.peer (s'.loop.recv s.epoch) s'.got s'.reader rest accepted sent c') :
    D.Kept r s accepted sent c' s' rest [] := by
  subst hpc
  obtain ⟨hwriter, hid, hinit, hkexes, hwrote, haccepted⟩ := hsame
  have hepoch : s'.epoch = s.epoch := by
    rw [Party.epoch, Party.epoch, hinit, hkexes]
  have hsent' : s'.sent = s.sent := by
    rw [Party.sent, Party.sent, hinit, hepoch, hsent]
  refine ⟨⟨⟨fun m hm => ?_, ?_, ?_, ?_, ?_, ?_⟩, ?_⟩, ?_, ?_⟩
  · rw [hepoch, hkexes]
    exact h.kex.init m (hinit.symm.trans hm)
  · rw [hepoch, hinit]
    exact hloop
  · rw [hwriter]
    exact h.kex.writer
  · rw [hreader, hawaits, hepoch]
    exact h.kex.reader
  · rw [hid, hawaits, hepoch]
    exact h.kex.sessionID
  · rw [hwrote, haccepted, hsent']
    exact h.kex.wrote
  · rw [hepoch]
    exact hhanded
  · rw [Party.recv, hepoch]
    exact hreads
  · rw [haccepted, hsent', hwriter]
    exact Sends.nothing r s.accepted s.sent s.writer

/-- The loop has sent a `KexInit` and goes on at `pc`. -/
theorem Local.setInit (h : D.Local r s)
    (hin : D.Carries r.peer s.recv s.got s.reader inp accepted sent c') {pc₀ : LoopPc}
    (hpc : s.loop = pc₀) (pc : LoopPc) (hsent : ∀ e, pc.sent e = pc₀.sent e)
    (hrecv : ∀ e, pc.recv e = pc₀.recv e) (hawaits : pc.awaits = pc₀.awaits)
    (hheld : pc.held = pc₀.held) (hloop : D.LoopOk r s.epoch true pc) {w : ConnectionState} {wr : List Bytes} {m : KexInit}
    {n : ℕ} (hkex : D.Kex r (s.setInit w wr m n)) (hepoch : (s.setInit w wr m n).epoch = s.epoch)
    (hsends : D.Sends r s.accepted s.sent s.writer out s.accepted (s.setInit w wr m n).sent w) :
    D.Kept r s accepted sent c' ((s.setInit w wr m n).setLoop pc) inp out := by
  subst hpc
  have hsent' : ((s.setInit w wr m n).setLoop pc).sent = (s.setInit w wr m n).sent :=
    hsent (s.setInit w wr m n).epoch
  refine ⟨⟨hkex.setLoop hsent' hawaits (hepoch ▸ hloop), ?_⟩, ?_, ?_⟩
  · show Handed (s.setInit w wr m n).epoch s.main s.replying s.waiting s.received s.incoming
      pc.held s.got
    rw [hepoch, hheld]
    exact h.handed
  · show D.Carries r.peer (pc.recv (s.setInit w wr m n).epoch) s.got s.reader inp accepted sent c'
    rw [hepoch, hrecv]
    exact hin
  · rw [hsent']
    exact hsends

theorem exchanged_spec (D : Duet) (r : Role) (e : ℕ) :
    (D.exchanged e r).sent e = 3 * e + 2 ∧ 3 * e + 1 ≤ (D.exchanged e r).recv e
      ∧ (D.exchanged e r).awaits = false ∧ (D.exchanged e r).held = []
      ∧ D.LoopOk r e true (D.exchanged e r) := by
  cases r with
  | client => exact ⟨rfl, Nat.le_refl _, rfl, rfl, rfl, rfl, rfl⟩
  | server => exact ⟨rfl, Nat.le_succ _, rfl, rfl, rfl, rfl, rfl⟩

/-- The second packet of a key exchange was written. -/
theorem Local.exchange (h : D.Local r s) (hsome : s.sentInit.isSome = true) {n : Negotiated}
    (hpc : s.loop = .exchanging n) {c w : ConnectionState}
    (hc : c.pendingKeyChange = s.reader.pendingKeyChange)
    (hw : w.pendingKeyChange = s.writer.pendingKeyChange)
    (hcar : D.Carries r.peer ((D.exchanged s.epoch r).recv s.epoch) s.got c rest accepted sent c')
    (hsends : D.Sends r s.accepted s.sent s.writer out s.accepted (s.sent + 1) w) :
    D.Kept r s accepted sent c' { s with
      reader := c
      writer := w
      wrote := s.wrote ++ [D.msg s.epoch r]
      loop := D.exchanged s.epoch r } rest out := by
  obtain ⟨hsent, -, hawaits, hheld, hloop⟩ := exchanged_spec D r s.epoch
  have hsent₁ : s.sent = 3 * s.epoch + 1 := by
    rw [Party.sent, if_pos hsome, hpc]
    rfl
  have hsent₂ : (if s.sentInit.isSome then (D.exchanged s.epoch r).sent s.epoch else 3 * s.epoch)
      = s.sent + 1 := by
    rw [if_pos hsome, hsent, hsent₁]
  have hwrote := h.kex.wrote.concat_kex
  rw [hsent₁, script_one] at hwrote
  have hreader := h.kex.reader
  have hid := h.kex.sessionID
  have hhanded := h.handed
  rw [hpc] at hreader hid hhanded
  refine ⟨⟨⟨h.kex.init, ?_, hw.trans h.kex.writer, ?_, ?_, ?_⟩, ?_⟩, hcar, ?_⟩
  · show D.LoopOk r s.epoch s.sentInit.isSome (D.exchanged s.epoch r)
    rw [hsome]
    exact hloop
  · show c.pendingKeyChange = if (D.exchanged s.epoch r).awaits then _ else none
    rw [hawaits]
    exact hc.trans hreader
  · show s.sessionID = if 0 < s.epoch ∨ (D.exchanged s.epoch r).awaits then _ else none
    rw [hawaits]
    exact hid
  · show Flow _ 0 _ _ (if s.sentInit.isSome then (D.exchanged s.epoch r).sent s.epoch
      else 3 * s.epoch)
    rw [hsent₂, hsent₁]
    exact hwrote
  · show Handed s.epoch s.main s.replying s.waiting s.received s.incoming
      (D.exchanged s.epoch r).held s.got
    rw [hheld]
    exact hhanded
  · show D.Sends r s.accepted s.sent s.writer _ s.accepted
      (if s.sentInit.isSome then (D.exchanged s.epoch r).sent s.epoch else 3 * s.epoch) w
    rw [hsent₂]
    exact hsends

/-- The keys for writing were put to use. -/
theorem Local.writeNewKeys (h : D.Local r s)
    (hin : D.Carries r.peer s.recv s.got s.reader inp accepted sent c') {algs : Algorithms}
    {res : KexResult} (hpc : s.loop = .agreed algs res) (hsome : s.sentInit.isSome = true)
    {w : ConnectionState} (hw : w.pendingKeyChange = none)
    (hsends : D.Sends r s.accepted s.sent s.writer out s.accepted (s.sent + 1) w) :
    D.Kept r s accepted sent c' { s with
      sessionID := some D.sessionID
      reader := { s.reader with pendingKeyChange := some (D.keysFrom r.peer (s.epoch + 1)) }
      writer := w
      wrote := s.wrote ++ [[msgNewKeys]]
      loop := .awaitNewKeys } inp out := by
  have hsent : s.sent = 3 * s.epoch + 2 := by
    rw [Party.sent, hpc, if_pos hsome]
    rfl
  have hsent₂ : (if s.sentInit.isSome then 3 * s.epoch + 3 else 3 * s.epoch) = s.sent + 1 := by
    rw [if_pos hsome, hsent]
  have hwrote := h.kex.wrote.concat_kex
  rw [hsent, script_two] at hwrote
  have hhanded := h.handed
  rw [hpc] at hhanded
  rw [Party.recv, hpc] at hin
  refine ⟨⟨⟨h.kex.init, hsome, hw, rfl, (if_pos (.inr rfl)).symm, ?_⟩, hhanded⟩, hin, ?_⟩
  · show Flow _ 0 _ _ (if s.sentInit.isSome then 3 * s.epoch + 3 else 3 * s.epoch)
    rw [hsent₂, hsent]
    exact hwrote
  · show D.Sends r s.accepted s.sent s.writer _ s.accepted
      (if s.sentInit.isSome then 3 * s.epoch + 3 else 3 * s.epoch) w
    rw [hsent₂]
    exact hsends

/-- The keys for reading were put to use. -/
theorem Local.readNewKeys (h : D.Local r s) (hpc : s.loop = .awaitNewKeys)
    (hsome : s.sentInit.isSome = true) {c : ConnectionState} (hc : c.pendingKeyChange = none)
    (hcar : D.Carries r.peer (3 * s.epoch + 3) s.got c rest accepted sent c') :
    D.Kept r s accepted sent c' ({ s with reader := c } : Party).finished rest [] := by
  have hid := h.kex.sessionID
  have hhanded := h.handed
  rw [hpc] at hid hhanded
  have hkexes := (h.kex.init _ (h.kex.under_way hsome).1).2
  have hsent : s.sent = 3 * s.kexes := by
    rw [Party.sent, hpc, if_pos hsome, hkexes]
    rfl
  refine ⟨⟨⟨nofun, .inl rfl, h.kex.writer, hc, ?_, ?_⟩, ?_⟩, ?_, ?_⟩
  · exact hid.trans ((if_pos (.inr rfl)).trans (if_pos (.inl (by show 0 < s.kexes; omega))).symm)
  · show Flow _ 0 _ _ (3 * s.kexes)
    rw [← hsent]
    exact h.kex.wrote
  · show Handed s.kexes s.main s.replying s.waiting s.received s.incoming [[msgNewKeys]] s.got
    rw [hkexes]
    exact hhanded.finish
  · show D.Carries r.peer (3 * s.kexes) s.got c _ accepted sent c'
    rw [hkexes]
    exact hcar
  · show D.Sends r s.accepted s.sent s.writer [] s.accepted (3 * s.kexes) s.writer
    rw [← hsent]
    exact Sends.nothing r s.accepted s.sent s.writer

/-- **A step of the loop keeps the invariant.** -/
theorem Local.loopStep (hD : D.Compatible) (h : D.Local r s)
    (hin : D.Carries r.peer s.recv s.got s.reader inp accepted sent c')
    (hs : s.loopStep D.prim (D.peer r) rand inp = some (s', rest, out)) :
    D.Kept r s accepted sent c' s' rest out := by
  have hloop := h.kex.loop
  have hhanded := h.handed
  cases h.kex.looped hD hin hs with
  | turn hpc =>
    rw [Party.recv, hpc] at hin
    rw [hpc] at hhanded
    exact h.silent hpc ⟨rfl, rfl, rfl, rfl, rfl, rfl⟩ (fun _ => rfl) rfl trivial rfl hhanded hin
  | init pc hpc w wr m n out hkex hepoch hsends =>
    rcases hpc with ⟨hpc, rfl⟩ | ⟨hpc, rfl⟩
    · exact h.setInit hin hpc .reading (fun _ => rfl) (fun _ => rfl) rfl rfl trivial hkex hepoch
        hsends
    · exact h.setInit hin hpc (.entered _) (fun _ => rfl) (fun _ => rfl) rfl rfl ⟨rfl, rfl⟩ hkex
        hepoch hsends
  | read hpc p rest c n hp hpos hc hcar =>
    rw [hpc] at hhanded
    exact h.silent hpc ⟨rfl, rfl, rfl, rfl, rfl, rfl⟩ (fun _ => rfl) rfl (.inr hp) hc
      (hhanded.read_plain hpos hp.2.2) hcar
  | readInit hpc rest c n hc hcar =>
    rw [hpc] at hhanded
    exact h.silent hpc ⟨rfl, rfl, rfl, rfl, rfl, rfl⟩ (fun _ => rfl) rfl rfl hc hhanded hcar
  | enter packet hpc hsome =>
    rw [Party.recv, hpc] at hin
    rw [hpc] at hhanded
    exact h.silent hpc ⟨rfl, rfl, rfl, rfl, rfl, rfl⟩ (fun _ => rfl) rfl ⟨rfl, hsome⟩ rfl hhanded
      hin
  | exchange n hpc hsome rest out c w hc hw hcar hsends =>
    exact h.exchange hsome hpc hc hw hcar hsends
  | readReply n hpc hsome rest c hc hcar =>
    rw [hpc] at hhanded
    exact h.silent hpc ⟨rfl, rfl, rfl, rfl, rfl, rfl⟩ (fun _ => rfl) rfl ⟨rfl, rfl, hsome⟩ hc
      hhanded hcar
  | writeNewKeys algs res hpc hsome out w hw hsends =>
    exact h.writeNewKeys hin hpc hsome hw hsends
  | readNewKeys hpc hsome rest c hc hcar => exact h.readNewKeys hpc hsome hc hcar
  | skip p hpc hp =>
    rw [Party.recv, hpc] at hin
    rw [hpc] at hhanded
    exact h.silent hpc ⟨rfl, rfl, rfl, rfl, rfl, rfl⟩ (fun _ => rfl) rfl trivial rfl
      (hhanded.skip hp) hin
  | push p hpc =>
    rw [Party.recv, hpc] at hin
    rw [hpc] at hhanded
    exact h.silent hpc ⟨rfl, rfl, rfl, rfl, rfl, rfl⟩ (fun _ => rfl) rfl trivial rfl hhanded.push
      hin

/-- A packet that nothing holds back is written, or refused for what it is. -/
theorem Local.commit (h : D.Local r s)
    (hin : D.Carries r.peer s.recv s.got s.reader inp accepted sent c')
    (hnone : s.sentInit = none) (hpos : 0 < s.epoch) {p : Bytes} (hp : Sendable p)
    (hs : s.commit rand p = (s', out)) : D.Kept r s accepted sent c' s' inp out := by
  obtain ⟨hepoch, hsent, -, -⟩ := h.kex.idle hnone
  obtain ⟨b, q, rfl⟩ := List.exists_cons_of_ne_nil hp.1
  rw [Party.commit, List.head?_cons] at hs
  simp only [] at hs
  split at hs
  · obtain ⟨rfl, rfl⟩ := Prod.mk.inj hs
    exact h.silent rfl ⟨rfl, rfl, rfl, rfl, rfl, rfl⟩ (fun _ => rfl) rfl h.kex.loop rfl h.handed hin
  · rename_i hb
    have hplain : Plain (b :: q) := by
      refine ⟨List.cons_ne_nil b q, fun h₁ => hb (.inl ?_), fun h₁ => hb (.inr ?_)⟩
      · exact Option.some.inj h₁
      · exact Option.some.inj h₁
    have h₃ : s.sent % 3 = 0 := by omega
    have h₀ : 0 < s.sent := by omega
    obtain ⟨o, w, hw, hpend, hsends⟩ :=
      write_plain (D := D) r s.accepted s.writer hplain hp.2 h₃ h₀ rand
    rw [Party.put, hw] at hs
    obtain ⟨rfl, rfl⟩ := Prod.mk.inj hs
    exact ⟨⟨⟨h.kex.init, h.kex.loop, hpend.trans h.kex.writer, h.kex.reader, h.kex.sessionID,
      h.kex.wrote.concat_plain hplain h₃ h₀⟩, h.handed⟩, hin, hsends⟩

/-- The invariant does not look at the packets that wait, but for what they
are. -/
theorem Local.setWaiting (h : D.Local r s) {waiting : List Bytes}
    (hw : ∀ p ∈ waiting, Sendable p ∧ s.main = .ready) : D.Local r { s with waiting := waiting } :=
  ⟨⟨h.kex.init, h.kex.loop, h.kex.writer, h.kex.reader, h.kex.sessionID, h.kex.wrote⟩,
    ⟨hw, h.handed.replying, h.handed.refused, h.handed.told, h.handed.opening, h.handed.newKeys,
      h.handed.record⟩⟩

theorem Local.setReplying (h : D.Local r s) {replying : Option Bytes}
    (hr : ∀ p, replying = some p → Sendable p ∧ 0 < s.epoch) :
    D.Local r { s with replying := replying } :=
  ⟨⟨h.kex.init, h.kex.loop, h.kex.writer, h.kex.reader, h.kex.sessionID, h.kex.wrote⟩,
    ⟨h.handed.waiting, hr, h.handed.refused, h.handed.told, h.handed.opening, h.handed.newKeys,
      h.handed.record⟩⟩

/-- Who may write. -/
def MayWrite (s : Party) : Caller → Prop
  | .reader => s.main.talks = true
  | .other => s.main = .ready

/-- Who writes is behind a change of keys. -/
theorem Local.pos_of_mayWrite (h : D.Local r s) (caller : Caller) (hmay : MayWrite s caller) :
    0 < s.epoch := by
  refine Nat.lt_of_lt_of_le ?_ h.handed.told_le
  cases caller with
  | other =>
    rw [show s.main = .ready from hmay]
    decide
  | reader =>
    have htalks : s.main.talks = true := hmay
    cases hmain : s.main with
    | login => decide
    | ready => decide
    | _ =>
      rw [hmain] at htalks
      cases htalks

/-- A goroutine waits with a packet. -/
theorem Local.await (h : D.Local r s) {caller : Caller} (hmay : MayWrite s caller) {p : Bytes}
    (hp : Sendable p) : D.Local r (s.await p caller) := by
  cases caller with
  | reader =>
    refine h.setReplying fun q hq => ?_
    obtain rfl := Option.some.inj hq
    exact ⟨hp, h.pos_of_mayWrite .reader hmay⟩
  | other =>
    refine h.setWaiting fun q hq => ?_
    rcases List.mem_append.mp hq with hq | hq
    · exact h.handed.waiting q hq
    · rw [List.mem_singleton.mp hq]
      exact ⟨hp, hmay⟩

/-- Waiting changes nothing else. -/
theorem Kept.await (h : D.Kept r s accepted sent c' s' rest out) {caller : Caller}
    (hmay : MayWrite s' caller) {p : Bytes} (hp : Sendable p) :
    D.Kept r s accepted sent c' (s'.await p caller) rest out := by
  have hloc := h.loc.await hmay hp
  cases caller with
  | reader => exact ⟨hloc, h.reads, h.sends⟩
  | other => exact ⟨hloc, h.reads, h.sends⟩

/-- A packet is given to `writePacket`. -/
theorem Local.writePacket (hD : D.Compatible) (h : D.Local r s)
    (hin : D.Carries r.peer s.recv s.got s.reader inp accepted sent c') (caller : Caller)
    (hmay : MayWrite s caller) {p : Bytes} (hp : Sendable p)
    (hs : s.writePacket (D.peer r) rand caller p = (s', out)) :
    D.Kept r s accepted sent c' s' inp out := by
  rw [Party.writePacket] at hs
  split at hs
  · obtain ⟨o, w, wr, m, n, hsend, hkex, hepoch, hsends⟩ := h.kex.sendKexInit hD rand
    rw [hsend] at hs
    obtain ⟨rfl, rfl⟩ := Prod.mk.inj hs
    have hmay' : MayWrite (s.setInit w wr m n) caller := by
      cases caller with
      | reader => exact hmay
      | other => exact hmay
    refine Kept.await ⟨⟨hkex, ?_⟩, ?_, hsends⟩ hmay' hp
    · rw [hepoch]
      exact h.handed
    · show D.Carries r.peer (s.loop.recv (s.setInit w wr m n).epoch) s.got s.reader inp accepted
        sent c'
      rw [hepoch]
      exact hin
  · split at hs
    · obtain ⟨rfl, rfl⟩ := Prod.mk.inj hs
      exact Kept.await ⟨h, hin, Sends.nothing r s.accepted s.sent s.writer⟩ hmay hp
    · rename_i hsome
      exact h.commit hin (Option.not_isSome_iff_eq_none.mp hsome) (h.pos_of_mayWrite caller hmay) hp
        hs

/-- A packet is taken from `incoming`. -/
theorem Local.took (h : D.Local r s)
    (hin : D.Carries r.peer s.recv s.got s.reader inp accepted sent c') {p : Bytes}
    {ps : List Bytes} (hincoming : s.incoming = p :: ps) (hmain : s.main.takes = true) :
    D.Kept r s accepted sent c' (s.took p ps) inp [] := by
  have hhanded := h.handed
  rw [hincoming] at hhanded
  exact h.silent rfl ⟨rfl, rfl, rfl, rfl, rfl, rfl⟩ (fun _ => rfl) rfl h.kex.loop rfl
    (hhanded.take hmain) hin

/-- The main goroutine begins. -/
theorem Local.opened (hD : D.Compatible) (h : D.Local r s)
    (hin : D.Carries r.peer s.recv s.got s.reader inp accepted sent c') (hmain : s.main = .opening)
    {s₁ : Party} (hsend : s.sendKexInit (D.peer r) rand = .ok out s₁) :
    D.Kept r s accepted sent c' { s₁ with main := .awaiting } inp out := by
  obtain ⟨o, w, wr, m, n, hsend', hkex, hepoch, hsends⟩ := h.kex.sendKexInit hD rand
  obtain ⟨rfl, rfl⟩ := WriteEnd.ok.inj (hsend.symm.trans hsend')
  have hhanded := h.handed
  rw [hmain] at hhanded
  refine ⟨⟨⟨hkex.init, hkex.loop, hkex.writer, hkex.reader, hkex.sessionID, hkex.wrote⟩, ?_⟩, ?_,
    hsends⟩
  · show Handed (s.setInit w wr m n).epoch .awaiting s.replying s.waiting s.received s.incoming
      s.loop.held s.got
    rw [hepoch]
    exact ⟨fun q hq => absurd (hhanded.waiting q hq).2 nofun, hhanded.replying, nofun,
      Nat.zero_le _, fun _ => hhanded.opening rfl, hhanded.newKeys, hhanded.record⟩
  · show D.Carries r.peer (s.loop.recv (s.setInit w wr m n).epoch) s.got s.reader inp accepted
      sent c'
    rw [hepoch]
    exact hin

/-- The login is done. -/
theorem Local.entered_mux (h : D.Local r s)
    (hin : D.Carries r.peer s.recv s.got s.reader inp accepted sent c') (hmain : s.main = .login) :
    D.Kept r s accepted sent c' { s with main := .ready } inp [] := by
  have hhanded := h.handed
  rw [hmain] at hhanded
  exact h.silent rfl ⟨rfl, rfl, rfl, rfl, rfl, rfl⟩ (fun _ => rfl) rfl h.kex.loop rfl
    ⟨fun q hq => ⟨(hhanded.waiting q hq).1, rfl⟩, hhanded.replying, nofun, hhanded.told, nofun,
      hhanded.newKeys, hhanded.record⟩ hin

/-- **A step of one side keeps the invariant.** -/
theorem Local.step (hD : D.Compatible) (h : D.Local r s)
    (hin : D.Carries r.peer s.recv s.got s.reader inp accepted sent c') {a : PartyAct}
    (ha : ∀ p, a = .write p ∨ a = .reply p → Sendable p)
    (hs : s.step D.prim (D.peer r) a rand inp = some (s', rest, out)) :
    D.Kept r s accepted sent c' s' rest out := by
  unfold Party.step at hs
  split at hs
  case isFalse => cases hs
  cases a with
  | loop => exact h.loopStep hD hin hs
  | «open» =>
    simp only [] at hs
    split at hs
    · rename_i hmain
      obtain ⟨o, w, wr, m, n, hsend, -⟩ := h.kex.sendKexInit hD rand
      rw [hsend] at hs
      obtain ⟨rfl, rfl, rfl⟩ := Option.some.inj hs
      exact h.opened hD hin hmain hsend
    · cases hs
  | read =>
    simp only [] at hs
    split at hs
    · cases hs
    · rename_i p ps hincoming
      split at hs
      · rename_i hmain
        obtain ⟨rfl, rfl, rfl⟩ := Option.some.inj hs
        exact h.took hin hincoming (Bool.and_eq_true_iff.mp hmain).1
      · cases hs
  | reply p =>
    simp only [] at hs
    split at hs
    · rename_i hmain
      obtain ⟨rfl, rfl, rfl⟩ := Option.some.inj hs
      exact h.writePacket hD hin .reader (Bool.and_eq_true_iff.mp hmain).1
        (ha p (.inr rfl)) rfl
    · cases hs
  | resume =>
    simp only [] at hs
    split at hs
    · cases hs
    · rename_i p hp
      split at hs
      · rename_i hnone
        obtain ⟨rfl, rfl, rfl⟩ := Option.some.inj hs
        obtain ⟨hsend, hpos⟩ := h.handed.replying p hp
        have hloc : D.Local r { s with replying := none } := h.setReplying nofun
        have hkept := hloc.commit hin (Option.isNone_iff_eq_none.mp hnone) hpos hsend
          (Prod.mk.eta (p := Party.commit _ rand p)).symm
        exact ⟨hkept.loc, hkept.reads, hkept.sends⟩
      · cases hs
  | enter =>
    simp only [] at hs
    split at hs
    · rename_i hmain
      obtain ⟨rfl, rfl, rfl⟩ := Option.some.inj hs
      exact h.entered_mux hin hmain.1
    · cases hs
  | write p =>
    simp only [] at hs
    split at hs
    · rename_i hmain
      obtain ⟨rfl, rfl, rfl⟩ := Option.some.inj hs
      exact h.writePacket hD hin .other hmain (ha p (.inl rfl)) rfl
    · cases hs
  | wake i =>
    simp only [] at hs
    split at hs
    · cases hs
    · rename_i p hp
      split at hs
      · rename_i hnone
        obtain ⟨rfl, rfl, rfl⟩ := Option.some.inj hs
        obtain ⟨hsend, hmain⟩ := h.handed.waiting p (List.mem_of_getElem? hp)
        have hloc : D.Local r { s with waiting := s.waiting.eraseIdx i } :=
          h.setWaiting fun q hq => h.handed.waiting q (List.mem_of_mem_eraseIdx hq)
        have hpos : 0 < s.epoch := h.pos_of_mayWrite .other hmain
        have hkept := hloc.commit hin (Option.isNone_iff_eq_none.mp hnone) hpos hsend
          (Prod.mk.eta (p := Party.commit _ rand p)).symm
        exact ⟨hkept.loc, hkept.reads, hkept.sends⟩
      · cases hs

end Duet

/-! ## Every interleaving -/

/-- **The condition on a schedule**: no packet that a goroutine writes is empty
or too large. -/
def DuoLabel.Proper (l : DuoLabel) : Prop :=
  match l.act with
  | .write p => Sendable p
  | .reply p => Sendable p
  | _ => True

instance (l : DuoLabel) : Decidable l.Proper := by
  unfold DuoLabel.Proper
  split <;> infer_instance

/-- **The invariant of both sides and the wire.** -/
structure Duet.Inv (D : Duet) (x : Duo) : Prop where
  loc : ∀ r, D.Local r (x.party r)
  wire : ∀ r, D.Carries r.peer (x.party r).recv (x.party r).got (x.party r).reader (x.wire r)
    (x.party r.peer).accepted (x.party r.peer).sent (x.party r.peer).writer

namespace Duet

variable {D : Duet} {x x' : Duo}

theorem inv_start : D.Inv (duo D.prim D.peer).start where
  loc r := by
    refine ⟨⟨nofun, trivial, rfl, rfl, rfl, .nil 0⟩,
      ⟨nofun, nofun, nofun, Nat.le_refl 0, fun _ => ?_, rfl, rfl⟩⟩
    exact ⟨rfl, fun _ => rfl, fun h => (Nat.lt_irrefl 0 h).elim⟩
  wire r := ⟨[], [], .nil 0, .nil _, rfl⟩

/-- What a step of the two is. -/
theorem step_cases {l : DuoLabel} (h : (duo D.prim D.peer).step x l = some x') :
    ∃ s rest out, (x.party l.role).step D.prim (D.peer l.role) l.act l.rand (x.wire l.role)
        = some (s, rest, out)
      ∧ x'.party l.role = s ∧ x'.party l.role.peer = x.party l.role.peer
      ∧ x'.wire l.role = rest ∧ x'.wire l.role.peer = x.wire l.role.peer ++ out := by
  have h : Duo.step D.prim D.peer x l = some x' := h
  rw [Duo.step] at h
  split at h
  · cases h
  · rename_i s rest out hstep
    obtain rfl := Option.some.inj h
    refine ⟨s, rest, out, hstep, ?_, ?_, ?_, ?_⟩
    · exact Function.update_self ..
    · exact Function.update_of_ne l.role.peer_ne ..
    · show Function.update (Function.update x.wire l.role rest) l.role.peer _ l.role = rest
      rw [Function.update_of_ne l.role.peer_ne.symm, Function.update_self]
    · exact Function.update_self ..

/-- **A step keeps the invariant.** -/
theorem Inv.step (hD : D.Compatible) (h : D.Inv x) {l : DuoLabel} (hl : l.Proper)
    (hs : (duo D.prim D.peer).step x l = some x') : D.Inv x' := by
  obtain ⟨s, rest, out, hstep, hself, hother, hrest, hout⟩ := step_cases hs
  have hsendable : ∀ p, l.act = .write p ∨ l.act = .reply p → Sendable p := by
    intro p hp
    rcases hp with hp | hp
    · rwa [DuoLabel.Proper, hp] at hl
    · rwa [DuoLabel.Proper, hp] at hl
  have hkept := (h.loc l.role).step hD (h.wire l.role) hsendable hstep
  have hback := h.wire l.role.peer
  rw [Role.peer_peer] at hback
  refine ⟨fun r => ?_, fun r => ?_⟩
  · by_cases hr : r = l.role
    · rw [hr, hself]
      exact hkept.loc
    · obtain rfl : r = l.role.peer := by
        cases r <;> cases hlr : l.role <;> simp_all [Role.peer]
      rw [hother]
      exact h.loc l.role.peer
  · by_cases hr : r = l.role
    · rw [hr, hself, hother, hrest]
      exact hkept.reads
    · obtain rfl : r = l.role.peer := by
        cases r <;> cases hlr : l.role <;> simp_all [Role.peer]
      rw [Role.peer_peer, hself, hother, hout]
      exact hkept.sends _ _ _ _ hback

/-- **The invariant holds along every run.** -/
theorem inv_of_run (hD : D.Compatible) {ls : List DuoLabel} (hls : ∀ l ∈ ls, l.Proper)
    (hx : (duo D.prim D.peer).run ls = some x) : D.Inv x := by
  refine Machine.run_rec (P := fun ls x => (∀ l ∈ ls, l.Proper) → D.Inv x) (fun _ => inv_start)
    (fun ls x l x' ih hs hls => ?_) hx hls
  have hl := hls l (List.mem_append_right ls (List.mem_singleton_self l))
  exact (ih fun l' hl' => hls l' (List.mem_append_left [l] hl')).step hD hl hs

end Duet

/-! ## What has been read -/

theorem Party.le_recv (s : Party) : 3 * s.epoch ≤ s.recv := by
  rw [Party.recv]
  cases s.loop <;> simp [LoopPc.recv]

theorem Party.sent_le (s : Party) : s.sent ≤ 3 * s.epoch + 3 := by
  rw [Party.sent]
  split
  · cases s.loop <;> simp [LoopPc.sent]
  · omega

theorem Party.drained_iff {s : Party} {inp : Bytes} :
    s.drained inp = true ↔ s.loop = .reading ∧ s.get inp = none ∧ s.incoming = [] := by
  have hloop : s.loop.isReading = true ↔ s.loop = .reading := by
    cases s.loop <;> simp [LoopPc.isReading]
  rw [drained, Bool.and_eq_true, Bool.and_eq_true, hloop, Option.isNone_iff_eq_none,
    List.isEmpty_iff, and_assoc]

namespace Duet

variable {D : Duet} {r : Role} {s : Party} {rand : Rand} {inp : Bytes}
  {accepted : List Bytes} {sent : ℕ} {c' : ConnectionState}

/-- The invariant keeps a side running. -/
theorem Kex.running (h : D.Kex r s) : s.running = true := by
  have hloop := h.loop
  rw [Party.running]
  cases hpc : s.loop with
  | ended err =>
    rw [hpc] at hloop
    exact hloop.elim
  | crashed =>
    rw [hpc] at hloop
    exact hloop.elim
  | _ => rfl

/-- Nothing is there to be read. -/
theorem Kex.get_none (hD : D.Compatible) (h : D.Kex r s)
    (hin : D.Carries r.peer s.recv s.got s.reader inp accepted sent c')
    (hpc : s.recv % 3 = 2 → s.loop = .awaitNewKeys) (hget : s.get inp = none) :
    s.recv = sent ∧ accepted = s.got := by
  rcases h.get_cases hD hin hpc with ⟨-, hall⟩ | ⟨rest, c, hsome, -⟩ | ⟨p, rest, c, -, -, -, hsome, -⟩
  · exact hall
  · rw [hget] at hsome
    cases hsome
  · rw [hget] at hsome
    cases hsome

variable {x : Duo}

/-- Neither side is more than one key exchange ahead of the other. -/
theorem Inv.epoch_le (hinv : D.Inv x) (r : Role) :
    (x.party r).epoch ≤ (x.party r.peer).epoch + 1 := by
  obtain ⟨ps, as, hflow, -⟩ := hinv.wire r
  have hle := hflow.le
  have hrecv := (x.party r).le_recv
  have hsent := (x.party r.peer).sent_le
  omega

end Duet

/-! ## The plainest connection -/

/-- A side with one algorithm of each kind. -/
def plainPeer (hostKeys : List HostSigner) : Peer where
  keyExchanges := [kexAlgoCurve25519SHA256]
  ciphers := [ascii "aes128-ctr"]
  macs := [ascii "hmac-sha1"]
  rekeyThreshold := 256
  hostKeys := hostKeys
  hostKeyAlgorithms := [ascii "ssh-rsa"]
  parsePublicKey _ := .ok ⟨fun _ _ => none⟩
  hostKeyCallback _ := none
  clientVersion := ascii "SSH-2.0-Go"
  serverVersion := ascii "SSH-2.0-Go"
  cookie _ := plainOffer.cookie
  secret _ _ := 0

def plainDuet : Duet where
  prim := plainPrimitives
  peer
    | .client => plainPeer []
    | .server => plainPeer [plainSigner]
  algs := plainAlgorithms
  k := plainX25519.curve25519sha256 (plainHash 31)
  signer := plainSigner

theorem plainPeer_offer (i : ℕ) : ∀ r, (plainDuet.peer r).offer i = plainOffer
  | .client => rfl
  | .server => rfl

/-- All its key exchanges are the same. -/
theorem plainDuet_msg (i : ℕ) :
    plainDuet.outcome i = plainDuet.outcome 0 ∧ plainDuet.msg i = plainDuet.msg 0 := by
  have hmagics : plainDuet.magics i = plainDuet.magics 0 := rfl
  have hclient : plainDuet.clientMsg i = plainDuet.clientMsg 0 := rfl
  have hsecret : (plainDuet.peer .server).secret i = (plainDuet.peer .server).secret 0 := rfl
  have houtcome : plainDuet.outcome i = plainDuet.outcome 0 := by
    rw [Duet.outcome, Duet.outcome, hmagics, hclient, hsecret]
  refine ⟨houtcome, funext fun r => ?_⟩
  cases r with
  | client => exact hclient
  | server => exact congrArg Prod.snd houtcome

theorem plainDuet_compatible : plainDuet.Compatible where
  lawful := plainPrimitives_lawful
  client := rfl
  server := rfl
  clientVersion := rfl
  serverVersion := rfl
  agree i := by
    rw [plainPeer_offer, plainPeer_offer]
    exact findAgreedAlgorithms_plainOffer
  kex := rfl
  cipher := rfl
  mac := rfl
  hostKey := rfl
  signs _ := ⟨_, rfl⟩
  trusts i := by
    rw [(plainDuet_msg i).1]
    decide +kernel
  fits r i := by
    rw [plainPeer_offer]
    exact plainOffer_fits
  small r n := by
    rw [Duet.script, plainPeer_offer]
    split
    · decide +kernel
    · split
      · rw [(plainDuet_msg (n / 3)).2]
        cases r <;> decide +kernel
      · decide

/-- The goroutines of one side, with padding of zeros. -/
def plainStep (r : Role) (a : PartyAct) : DuoLabel := ⟨r, a, fun _ => 0⟩

/-- Steps of the loops of both sides. -/
def plainLoops (rs : List Role) : List DuoLabel := rs.map (fun r => plainStep r .loop)

/-- **The first change of keys**, begun by both, and the logins. -/
def plainOpening : List DuoLabel :=
  [plainStep .client .open, plainStep .server .open]
  ++ plainLoops ((List.replicate 9 [.client, .server]).flatten ++ [.client])
  ++ [plainStep .client .read, plainStep .server .read, plainStep .client .enter,
    plainStep .server .enter]

/-- The client begins another one because it has written much. A packet has to
wait for it. -/
def plainBegin : List DuoLabel :=
  plainOpening
  ++ [plainStep .client (.write (List.replicate 257 5)), plainStep .client (.write [5, 1])]

/-- **Two changes of keys**, the second begun by both again: the server has read
much. -/
def plainRun : List DuoLabel :=
  plainBegin
  ++ plainLoops (List.replicate 6 .server ++ List.replicate 4 .client ++ List.replicate 2 .server
    ++ List.replicate 5 .client ++ List.replicate 3 .server)
  ++ [plainStep .client (.wake 0)]
  ++ plainLoops (List.replicate 3 .server)
  ++ List.replicate 3 (plainStep .server .read)

theorem plainRun_proper : ∀ l ∈ plainRun, l.Proper := by decide +kernel

theorem run_plainRun : ∃ x, (duo plainDuet.prim plainDuet.peer).run plainRun = some x
    ∧ (x.party .server).drained (x.wire .server) = true
    ∧ (x.party .server).received = [[21], List.replicate 257 5, [21], [5, 1]]
    ∧ (x.party .client).epoch = 2
    ∧ (x.party .client).sessionID = some (List.replicate 32 0)
    ∧ ∀ r, (x.party r).main = .ready := by
  have h : ((duo plainDuet.prim plainDuet.peer).run plainRun).map (fun x =>
        ((x.party .server).drained (x.wire .server)
            && [Role.client, .server].all (fun r => decide ((x.party r).main = .ready)),
          (x.party .server).received, (x.party .client).epoch, (x.party .client).sessionID))
      = some (true, [[21], List.replicate 257 5, [21], [5, 1]], 2,
          some (List.replicate 32 0)) := by
    decide +kernel
  obtain ⟨x, hx, heq⟩ := Option.map_eq_some_iff.mp h
  simp only [Prod.mk.injEq, Bool.and_eq_true_iff, List.all_eq_true, decide_eq_true_eq] at heq
  obtain ⟨⟨hdrained, hready⟩, hreceived, hepoch, hsid⟩ := heq
  refine ⟨x, hx, hdrained, hreceived, hepoch, hsid, fun r => hready r ?_⟩
  cases r with
  | client => exact List.mem_cons_self
  | server => exact List.mem_cons_of_mem _ List.mem_cons_self

/-! ## Main results -/

variable {D : Duet} {ls : List DuoLabel} {x : Duo}

/-- **No change of keys breaks the transports**: whenever and however often keys
change, from one side or both at once, no loop ends with an error or a panic
and no handshake is refused for its first packet, as long as neither login has
failed. A login fails only where a second change of keys comes to its end
before it does. -/
theorem rekey_safe (hD : D.Compatible) (hls : ∀ l ∈ ls, l.Proper)
    (hx : (duo D.prim D.peer).run ls = some x) :
    ((∀ r, (x.party r).main ≠ .failed) →
      ∀ r, (x.party r).running = true ∧ ∀ err, (x.party r).main ≠ .refused err)
    ∧ ∀ r, (x.party r).main = .failed → 2 ≤ (x.party r).epoch := by
  have hinv := Duet.inv_of_run hD hls hx
  refine ⟨fun _ r => ⟨(hinv.loc r).kex.running, (hinv.loc r).handed.refused⟩, fun r hfailed => ?_⟩
  have htold := (hinv.loc r).handed.told_le
  rwa [hfailed] at htold

theorem rekey_safe_plain : ∃ x, (duo plainDuet.prim plainDuet.peer).run plainRun = some x
    ∧ (x.party .client).epoch = 2 ∧ ∀ r, (x.party r).running = true := by
  obtain ⟨x, hx, -, -, hepoch, -, hready⟩ := run_plainRun
  have hopen : ∀ r, (x.party r).main ≠ .failed := by
    intro r
    rw [hready]
    nofun
  exact ⟨x, hx, hepoch, fun r =>
    ((rekey_safe plainDuet_compatible plainRun_proper hx).1 hopen r).1⟩

-- the client's loop answers the server before `clientHandshake` asks for a change of keys
example : ((duo plainDuet.prim plainDuet.peer).run ([plainStep .server .open]
    ++ plainLoops (List.replicate 5 .client ++ List.replicate 6 .server ++ List.replicate 5 .client
      ++ List.replicate 3 .server)
    ++ [plainStep .client .open, plainStep .client .read]
    ++ plainLoops (List.replicate 3 .server ++ List.replicate 4 .client ++ List.replicate 2 .server
      ++ List.replicate 4 .client)
    ++ [plainStep .client .read])).map (fun x => (x.party .client).main) = some .failed := by
  decide +kernel

/-- **Packets are held back while keys change**: what a side has written are the
messages of its key exchanges in order, and every other packet stands between
the `NewKeys` of one exchange and the `KexInit` of the next. None is sent
before the first exchange, in the clear. -/
theorem rekey_order (hD : D.Compatible) (hls : ∀ l ∈ ls, l.Proper)
    (hx : (duo D.prim D.peer).run ls = some x) (r : Role) :
    Flow (D.script r) 0 (x.party r).wrote (x.party r).accepted (x.party r).sent :=
  ((Duet.inv_of_run hD hls hx).loc r).kex.wrote

theorem rekey_order_plain : ∃ x, (duo plainDuet.prim plainDuet.peer).run plainRun = some x
    ∧ (x.party .client).epoch = 2
    ∧ ∀ r, Flow (plainDuet.script r) 0 (x.party r).wrote (x.party r).accepted (x.party r).sent := by
  obtain ⟨x, hx, -, -, hepoch, -, -⟩ := run_plainRun
  exact ⟨x, hx, hepoch, rekey_order plainDuet_compatible plainRun_proper hx⟩

/-- **No packet is lost, repeated or reordered by a change of keys**, those
apart that a reader skips: what a side has received is a first part of what the
other's `writePacket` has let through, and all of it when its loop waits for
bytes and `incoming` is empty. -/
theorem rekey_delivers (hD : D.Compatible) (hls : ∀ l ∈ ls, l.Proper)
    (hx : (duo D.prim D.peer).run ls = some x) (r : Role) :
    useful (x.party r).received <+: useful (x.party r.peer).accepted
      ∧ ((x.party r).drained (x.wire r) = true →
        useful (x.party r).received = useful (x.party r.peer).accepted) := by
  have hinv := Duet.inv_of_run hD hls hx
  have hloc := hinv.loc r
  have hrecord := hloc.handed.record
  refine ⟨?_, fun hdrained => ?_⟩
  · obtain ⟨ps, as, -, -, hacc⟩ := hinv.wire r
    rw [hacc, useful_append, ← hrecord, useful_append, List.append_assoc]
    exact List.prefix_append ..
  · obtain ⟨hloop, hget, hincoming⟩ := Party.drained_iff.mp hdrained
    have hpc : (x.party r).recv % 3 = 2 → (x.party r).loop = .awaitNewKeys := by
      rw [Party.recv, hloop]
      intro h₂
      exact absurd h₂ (by show 3 * (x.party r).epoch % 3 ≠ 2; omega)
    obtain ⟨-, hall⟩ := hloc.kex.get_none hD (hinv.wire r) hpc hget
    rw [hincoming, hloop] at hrecord
    rw [hall, ← hrecord]
    exact congrArg useful (List.append_nil _).symm

theorem rekey_delivers_plain : ∃ x, (duo plainDuet.prim plainDuet.peer).run plainRun = some x
    ∧ (x.party .server).received = [[21], List.replicate 257 5, [21], [5, 1]]
    ∧ useful (x.party .client).accepted = [List.replicate 257 5, [5, 1]] := by
  obtain ⟨x, hx, hdrained, hreceived, -⟩ := run_plainRun
  have hall := (rekey_delivers plainDuet_compatible plainRun_proper hx .server).2 hdrained
  rw [hreceived] at hall
  exact ⟨x, hx, hreceived, hall.symm⟩

/-- **The session keeps its name**: a side that knows a session ID knows the hash
of the first key exchange, after any number of further ones, and neither side
is more than one key exchange ahead of the other. -/
theorem rekey_session (hD : D.Compatible) (hls : ∀ l ∈ ls, l.Proper)
    (hx : (duo D.prim D.peer).run ls = some x) (r : Role) :
    (∀ sid, (x.party r).sessionID = some sid → sid = D.sessionID)
      ∧ (x.party r).epoch ≤ (x.party r.peer).epoch + 1 := by
  have hinv := Duet.inv_of_run hD hls hx
  refine ⟨fun sid hsid => ?_, ?_⟩
  · rw [(hinv.loc r).kex.sessionID] at hsid
    split at hsid
    · exact (Option.some.inj hsid).symm
    · cases hsid
  · exact hinv.epoch_le r

theorem rekey_session_plain : ∃ x, (duo plainDuet.prim plainDuet.peer).run plainRun = some x
    ∧ (x.party .client).sessionID = some (List.replicate 32 0)
    ∧ List.replicate 32 0 = plainDuet.sessionID ∧ 2 ≤ (x.party .server).epoch + 1 := by
  obtain ⟨x, hx, -, -, hepoch, hsid, -⟩ := run_plainRun
  obtain ⟨hsame, hle⟩ := rekey_session plainDuet_compatible plainRun_proper hx .client
  rw [hepoch] at hle
  exact ⟨x, hx, hsid, hsame _ hsid, hle⟩

end Ssh
