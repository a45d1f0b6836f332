import Katela.Net.Receive

/-! # Replies and the requests that wait for them

The receive task and the shell task of `src/kernel/net.c`, which share the variables
of a request without a lock. The receive task can be preempted between its check of a
datagram and the publication of the result, and the shell task between any two of its
statements. -/

namespace Katela.Net

/-- A datagram as the check gets it. -/
inductive Datagram where
  | icmp (source : Ipv4Addr) (message : IcmpMessage)
  | udp (source : Ipv4Addr) (header : UdpHeader) (payload : List UInt8)
      (unset : Ipv4Addr)

/-- What the receive task writes after a check. -/
inductive Publication where
  | echo
  | dns (address : Ipv4Addr) (status : Option DnsError)
  deriving DecidableEq

/-- The statement of the shell task that comes next, with the arguments of the call
and the attempts that are left. -/
inductive Shell where
  | idle
  | pingSequence (target : Ipv4Addr)
  | pingTarget (target : Ipv4Addr)
  | pingReset (target : Ipv4Addr)
  | pingArm (target : Ipv4Addr)
  | pingWait (target : Ipv4Addr)
  | pingStop (target : Ipv4Addr)
  | pinged (target : Ipv4Addr)
  | resolveName (name : CString)
  | resolveId (name : CString) (attempts : Nat)
  | resolvePort (name : CString) (attempts : Nat) (random : UInt32)
  | resolveReset (name : CString) (attempts : Nat)
  | resolveClear (name : CString) (attempts : Nat)
  | resolveArm (name : CString) (attempts : Nat)
  | resolveWait (name : CString) (attempts : Nat)
  | resolveStop (name : CString)
  | resolveStatus (name : CString)
  | resolveRead (name : CString)
  | resolved (name : CString) (address : Ipv4Addr)

/-- The shared variables, what each task is about to do, and the datagrams that passed
the check since the current call or attempt began. -/
structure World where
  echo : EchoState
  dns : DnsState
  dnsServer : Ipv4Addr
  pending : Option Publication
  shell : Shell
  heard : List Datagram

inductive Action where
  | ping (target : Ipv4Addr)
  | resolve (name : CString)
  | advance (random : UInt32)
  | timeout
  | check (datagram : Datagram)
  | publish (now : UInt32)

def dnsAttempts : Nat := 3

def dnsNameMax : Nat := 253

/-- What is left in `dns_name` of a name that is too long. The last byte of that array
is only ever a terminator. -/
def CString.clipped (name : CString) : CString where
  characters := name.characters.take dnsNameMax
  terminated := fun member => name.terminated (List.mem_of_mem_take member)

/-- The port of an attempt. -/
def portOf (random : UInt32) : UInt16 :=
  UInt16.ofNat (49152 + (random.toNat >>> 3) % 16384)

/-- The next statement of the shell task. A wait only ends here when its condition
holds. -/
def advance (world : World) (random : UInt32) : Option World :=
  match world.shell with
  | .pingSequence target => some { world with
      echo := { world.echo with sequence := world.echo.sequence + 1 }
      shell := .pingTarget target }
  | .pingTarget target => some { world with
      echo := { world.echo with target }
      shell := .pingReset target }
  | .pingReset target => some { world with
      echo := { world.echo with received := false }
      shell := .pingArm target }
  | .pingArm target => some { world with
      echo := { world.echo with waiting := true }
      shell := .pingWait target }
  | .pingWait target =>
      if world.echo.received then some { world with shell := .pingStop target }
      else none
  | .pingStop target => some { world with
      echo := { world.echo with waiting := false }
      shell := .pinged target }
  | .resolveName name =>
      if name.characters.length > dnsNameMax then some { world with
        dns := { world.dns with name := name.clipped }
        shell := .idle }
      else some { world with
        dns := { world.dns with name }
        shell := .resolveId name dnsAttempts }
  | .resolveId name attempts =>
      match attempts with
      | 0 => some { world with shell := .idle }
      | attempts + 1 => some { world with
          dns := { world.dns with id := UInt16.ofNat random.toNat }
          heard := []
          shell := .resolvePort name attempts random }
  | .resolvePort name attempts random => some { world with
      dns := { world.dns with localPort := portOf random }
      shell := .resolveReset name attempts }
  | .resolveReset name attempts => some { world with
      dns := { world.dns with done := false }
      shell := .resolveClear name attempts }
  | .resolveClear name attempts => some { world with
      dns := { world.dns with status := none }
      shell := .resolveArm name attempts }
  | .resolveArm name attempts => some { world with
      dns := { world.dns with waiting := true }
      shell := .resolveWait name attempts }
  | .resolveWait name _ =>
      if world.dns.done then some { world with shell := .resolveStop name } else none
  | .resolveStop name => some { world with
      dns := { world.dns with waiting := false }
      shell := .resolveStatus name }
  | .resolveStatus name =>
      match world.dns.status with
      | none => some { world with shell := .resolveRead name }
      | some _ => some { world with shell := .idle }
  | .resolveRead name => some { world with
      shell := .resolved name world.dns.address }
  | .idle => none
  | .pinged _ => none
  | .resolved _ _ => none

/-- The shell task calls a function when no call is going on. -/
def startCall (world : World) (shell : Shell) : Option World :=
  match world.shell with
  | .idle => some { world with shell, heard := [] }
  | .pinged _ => some { world with shell, heard := [] }
  | .resolved _ _ => some { world with shell, heard := [] }
  | _ => none

/-- A wait that ends without an answer, and the early returns: before the first
attempt for a name that cannot be encoded or without a route, and in an attempt for a
message that cannot be built or sent. -/
def giveUp (world : World) : Option World :=
  match world.shell with
  | .pingSequence _ => some { world with shell := .idle }
  | .resolveId _ _ => some { world with shell := .idle }
  | .resolveArm _ _ => some { world with shell := .idle }
  | .pingWait _ => some { world with
      echo := { world.echo with waiting := false }
      shell := .idle }
  | .resolveWait name attempts => some { world with
      dns := { world.dns with waiting := false }
      shell := .resolveId name attempts }
  | _ => none

/-- The check of a datagram by the receive task, which handles one at a time. -/
def checkDatagram (world : World) (datagram : Datagram) : Option World :=
  match world.pending with
  | some _ => none
  | none =>
      match datagram with
      | .icmp source message =>
          if acceptsEcho world.echo source message then
            some { world with
              pending := some .echo, heard := datagram :: world.heard }
          else some world
      | .udp source header payload unset =>
          if acceptsPort world.dns world.dnsServer source header then
            match acceptedResult world.dns payload unset with
            | .done (some (address, status)) => some { world with
                pending := some (.dns address status), heard := datagram :: world.heard }
            | _ => some world
          else some world

def publish (world : World) (now : UInt32) : Option World :=
  match world.pending with
  | none => none
  | some .echo => some { world with
      echo := publishEcho world.echo now, pending := none }
  | some (.dns address status) => some { world with
      dns := publishDns world.dns address status, pending := none }

def step (world : World) : Action → Option World
  | .ping target => startCall world (.pingSequence target)
  | .resolve name => startCall world (.resolveName name)
  | .advance random => advance world random
  | .timeout => giveUp world
  | .check datagram => checkDatagram world datagram
  | .publish now => publish world now

/-- The states that are reached by steps of a kind from a start without a request. -/
inductive Reached (allowed : World → Action → Prop) : World → Prop where
  | boot {world : World} (noEcho : world.echo.waiting = false)
      (noDns : world.dns.waiting = false) (nothing : world.pending = none)
      (idle : world.shell = .idle) : Reached allowed world
  | step {world world' : World} (action : Action) (before : Reached allowed world)
      (isAllowed : allowed world action) (taken : step world action = some world') :
      Reached allowed world'

/-- A reply from the target with the number of the request was heard. -/
def EchoHeard (world : World) (target : Ipv4Addr) : Prop :=
  ∃ message, .icmp target message ∈ world.heard ∧ message.type = 0 ∧
    message.id = pingId ∧ message.sequence = world.echo.sequence

/-- A response to the question for the name with the number of the attempt was heard,
and this is its address. -/
def ResponseHeard (world : World) (name : CString) (address : Ipv4Addr) : Prop :=
  ∃ source header payload unset, .udp source header payload unset ∈ world.heard ∧
    dnsResponseParse payload world.dns.id name = .done address

/-- A call that returned `NET_OK` was answered. -/
def Matched (world : World) : Prop :=
  match world.shell with
  | .pinged target => EchoHeard world target
  | .resolved name address => ResponseHeard world name address
  | _ => True

/-- A result for a name is about to be published. -/
def dnsPending (world : World) : Prop :=
  ∃ address status, world.pending = some (.dns address status)

/-- The shell task does not reset the flag of a request, and does not look at the
status of one, while the receive task is between the check of a datagram and the
publication of its result. -/
def Undisturbed (world : World) (action : Action) : Prop :=
  match action, world.shell with
  | .advance _, .pingReset _ => world.pending ≠ some .echo
  | .advance _, .resolveReset _ _ => ¬ dnsPending world
  | .advance _, .resolveStatus _ => ¬ dnsPending world
  | _, _ => True

/-! ## What each statement relies on -/

/-- The check can only accept something while the shell task waits for it. -/
structure Guarded (world : World) : Prop where
  echo : world.echo.waiting = true →
    ∃ target, world.shell = .pingWait target ∨ world.shell = .pingStop target
  dns : world.dns.waiting = true →
    ∃ name, (∃ attempts, world.shell = .resolveWait name attempts) ∨
      world.shell = .resolveStop name

/-- A result that is about to be published was heard. -/
def PendingHeard (world : World) (name : CString) : Prop :=
  ∀ address, world.pending = some (.dns address none) → ResponseHeard world name address

/-- The published result was heard. -/
def StatusHeard (world : World) (name : CString) : Prop :=
  world.dns.status = none → ResponseHeard world name world.dns.address

/-- What holds before each statement of the shell task. -/
def Justified (world : World) : Prop :=
  match world.shell with
  | .pingReset target => world.echo.target = target
  | .pingArm target => world.echo.target = target ∧ world.echo.received = false ∧
      world.pending ≠ some .echo
  | .pingWait target => world.echo.target = target ∧
      (world.echo.received = true ∨ world.pending = some .echo → EchoHeard world target)
  | .pingStop target => EchoHeard world target
  | .pinged target => EchoHeard world target
  | .resolveId name _ => world.dns.name = name
  | .resolvePort name _ _ => world.dns.name = name
  | .resolveReset name _ => world.dns.name = name
  | .resolveClear name _ => world.dns.name = name ∧ world.dns.done = false ∧
      ¬ dnsPending world
  | .resolveArm name _ => world.dns.name = name ∧ world.dns.done = false ∧
      ¬ dnsPending world
  | .resolveWait name _ => world.dns.name = name ∧
      (world.dns.done = true → StatusHeard world name) ∧ PendingHeard world name
  | .resolveStop name => world.dns.name = name ∧ StatusHeard world name ∧
      PendingHeard world name
  | .resolveStatus name => StatusHeard world name ∧ PendingHeard world name
  | .resolveRead name => ResponseHeard world name world.dns.address ∧
      ¬ dnsPending world
  | .resolved name address => ResponseHeard world name address
  | _ => True

section Steps

variable {world world' : World}

theorem EchoHeard.cons {target : Ipv4Addr} {datagram : Datagram}
    (isHeard : EchoHeard world target) (pending : Option Publication) :
    EchoHeard { world with pending, heard := datagram :: world.heard } target := by
  rcases isHeard with ⟨message, member, rest⟩
  exact ⟨message, List.mem_cons_of_mem _ member, rest⟩

theorem ResponseHeard.cons {name : CString} {address : Ipv4Addr} {datagram : Datagram}
    (isHeard : ResponseHeard world name address) (pending : Option Publication) :
    ResponseHeard { world with pending, heard := datagram :: world.heard } name
      address := by
  rcases isHeard with ⟨source, header, payload, unset, member, parsed⟩
  exact ⟨source, header, payload, unset, List.mem_cons_of_mem _ member, parsed⟩

/-- An accepted result without an error is the address of the message. -/
theorem acceptedResult_address {dns : DnsState} {payload : List UInt8}
    {unset address : Ipv4Addr}
    (accepted : acceptedResult dns payload unset = .done (some (address, none))) :
    dnsResponseParse payload dns.id dns.name = .done address := by
  rcases Checked.recover_eq_done accepted with ⟨found, parsed, same⟩ | ⟨error, _, same⟩
  · cases same
    exact parsed
  · simp only [Checked.done.injEq] at same
    split at same
    · cases same
    · cases same

theorem checkEcho_justified {source : Ipv4Addr} {message : IcmpMessage}
    (guarded : Guarded world) (justified : Justified world)
    (accepted : acceptsEcho world.echo source message = true) :
    Justified { world with
      pending := some .echo, heard := .icmp source message :: world.heard } := by
  unfold acceptsEcho at accepted
  rw [decide_eq_true_eq] at accepted
  rcases accepted with ⟨isReply, waiting, isPing, isSequence, isTarget⟩
  rcases guarded.echo waiting with ⟨target, isShell | isShell⟩
  · unfold Justified at justified ⊢
    simp only [isShell] at justified ⊢
    refine ⟨justified.1, fun _ => ⟨message, ?_, isReply, isPing, isSequence⟩⟩
    rw [isTarget, justified.1]
    exact List.mem_cons_self
  · unfold Justified at justified ⊢
    simp only [isShell] at justified ⊢
    exact justified.cons (some .echo)

theorem checkDns_justified {source unset address : Ipv4Addr} {header : UdpHeader}
    {payload : List UInt8} {status : Option DnsError} (guarded : Guarded world)
    (justified : Justified world)
    (port : acceptsPort world.dns world.dnsServer source header = true)
    (accepted : acceptedResult world.dns payload unset =
      .done (some (address, status))) :
    Justified { world with
      pending := some (.dns address status)
      heard := .udp source header payload unset :: world.heard } := by
  unfold acceptsPort at port
  rw [decide_eq_true_eq] at port
  -- A result that is published without an error comes from this message.
  have pendingHeard : ∀ name, world.dns.name = name → PendingHeard { world with
      pending := some (.dns address status)
      heard := .udp source header payload unset :: world.heard } name := by
    intro name isName other isPending
    cases isPending
    refine ⟨source, header, payload, unset, List.mem_cons_self, ?_⟩
    rw [← isName]
    exact acceptedResult_address accepted
  have statusHeard : ∀ name, StatusHeard world name → StatusHeard { world with
      pending := some (.dns address status)
      heard := .udp source header payload unset :: world.heard } name :=
    fun name isHeard noError => (isHeard noError).cons _
  rcases guarded.dns port.1 with ⟨name, ⟨attempts, isShell⟩ | isShell⟩
  · unfold Justified at justified ⊢
    simp only [isShell] at justified ⊢
    exact ⟨justified.1, fun isDone => statusHeard name (justified.2.1 isDone),
      pendingHeard name justified.1⟩
  · unfold Justified at justified ⊢
    simp only [isShell] at justified ⊢
    exact ⟨justified.1, statusHeard name justified.2.1, pendingHeard name justified.1⟩

theorem publishEcho_justified {now : UInt32} (isPending : world.pending = some .echo)
    (justified : Justified world) :
    Justified { world with echo := publishEcho world.echo now, pending := none } := by
  have noDns : ∀ world' : World, world'.pending = none → ¬ dnsPending world' := by
    rintro world' nothing ⟨address, status, impossible⟩
    rw [nothing] at impossible
    cases impossible
  have noPending : ∀ (world' : World) name, world'.pending = none →
      PendingHeard world' name := by
    intro world' name nothing address impossible
    rw [nothing] at impossible
    cases impossible
  unfold Justified at justified ⊢
  cases isShell : world.shell with
  | pingArm target =>
      simp only [isShell] at justified
      exact absurd isPending justified.2.2
  | pingWait target =>
      simp only [isShell] at justified ⊢
      exact ⟨justified.1, fun _ => justified.2 (Or.inr isPending)⟩
  | resolveClear name attempts =>
      simp only [isShell] at justified ⊢
      exact ⟨justified.1, justified.2.1, noDns _ rfl⟩
  | resolveArm name attempts =>
      simp only [isShell] at justified ⊢
      exact ⟨justified.1, justified.2.1, noDns _ rfl⟩
  | resolveWait name attempts =>
      simp only [isShell] at justified ⊢
      exact ⟨justified.1, justified.2.1, noPending _ name rfl⟩
  | resolveStop name =>
      simp only [isShell] at justified ⊢
      exact ⟨justified.1, justified.2.1, noPending _ name rfl⟩
  | resolveStatus name =>
      simp only [isShell] at justified ⊢
      exact ⟨justified.1, noPending _ name rfl⟩
  | resolveRead name =>
      simp only [isShell] at justified ⊢
      exact ⟨justified.1, noDns _ rfl⟩
  | idle | pingSequence _ | pingTarget _ | resolveName _ => trivial
  | _ =>
      simp only [isShell] at justified ⊢
      exact justified

theorem publishDns_justified {address : Ipv4Addr} {status : Option DnsError}
    (isPending : world.pending = some (.dns address status))
    (justified : Justified world) :
    Justified { world with
      dns := publishDns world.dns address status, pending := none } := by
  have isDnsPending : dnsPending world := ⟨address, status, isPending⟩
  have noPending : ∀ name, PendingHeard { world with
      dns := publishDns world.dns address status, pending := none } name := by
    intro name other impossible
    cases impossible
  have statusHeard : ∀ name, PendingHeard world name → StatusHeard { world with
      dns := publishDns world.dns address status, pending := none } name := by
    intro name isHeard noError
    have isNone : status = none := noError
    rw [isNone] at isPending
    exact isHeard address isPending
  unfold Justified at justified ⊢
  cases isShell : world.shell with
  | pingArm target =>
      simp only [isShell] at justified ⊢
      exact ⟨justified.1, justified.2.1, by simp⟩
  | pingWait target =>
      simp only [isShell] at justified ⊢
      refine ⟨justified.1, fun cause => justified.2 (Or.inl ?_)⟩
      rcases cause with received | impossible
      · exact received
      · cases impossible
  | resolveClear name attempts =>
      simp only [isShell] at justified
      exact absurd isDnsPending justified.2.2
  | resolveArm name attempts =>
      simp only [isShell] at justified
      exact absurd isDnsPending justified.2.2
  | resolveWait name attempts =>
      simp only [isShell] at justified ⊢
      exact ⟨justified.1, fun _ => statusHeard name justified.2.2, noPending name⟩
  | resolveStop name =>
      simp only [isShell] at justified ⊢
      exact ⟨justified.1, statusHeard name justified.2.2, noPending name⟩
  | resolveStatus name =>
      simp only [isShell] at justified ⊢
      exact ⟨statusHeard name justified.2, noPending name⟩
  | resolveRead name =>
      simp only [isShell] at justified
      exact absurd isDnsPending justified.2
  | idle | pingSequence _ | pingTarget _ | resolveName _ => trivial
  | _ =>
      simp only [isShell] at justified ⊢
      exact justified

theorem advance_justified {random : UInt32} (justified : Justified world)
    (undisturbed : Undisturbed world (.advance random))
    (taken : advance world random = some world') : Justified world' := by
  unfold advance at taken
  unfold Justified at justified
  unfold Undisturbed at undisturbed
  cases isShell : world.shell with
  | pingReset target =>
      simp only [isShell] at justified undisturbed taken
      cases taken
      exact ⟨justified, rfl, undisturbed⟩
  | pingArm target =>
      simp only [isShell] at justified taken
      cases taken
      refine ⟨justified.1, fun cause => ?_⟩
      rcases cause with received | isPending
      · rw [justified.2.1] at received
        cases received
      · exact absurd isPending justified.2.2
  | pingWait target =>
      simp only [isShell] at justified taken
      split at taken
      · next received =>
          cases taken
          exact justified.2 (Or.inl received)
      · cases taken
  | resolveId name attempts =>
      simp only [isShell] at justified taken
      cases attempts with
      | zero =>
          cases taken
          trivial
      | succ attempts =>
          cases taken
          exact justified
  | resolveReset name attempts =>
      simp only [isShell] at justified undisturbed taken
      cases taken
      exact ⟨justified, rfl, undisturbed⟩
  | resolveArm name attempts =>
      simp only [isShell] at justified taken
      cases taken
      refine ⟨justified.1, fun isDone => ?_, fun address isPending => ?_⟩
      · rw [justified.2.1] at isDone
        cases isDone
      · exact absurd ⟨address, none, isPending⟩ justified.2.2
  | resolveWait name attempts =>
      simp only [isShell] at justified taken
      split at taken
      · next isDone =>
          cases taken
          exact ⟨justified.1, justified.2.1 isDone, justified.2.2⟩
      · cases taken
  | resolveStop name =>
      simp only [isShell] at justified taken
      cases taken
      exact ⟨justified.2.1, justified.2.2⟩
  | resolveStatus name =>
      simp only [isShell] at justified undisturbed taken
      split at taken
      · next noError =>
          cases taken
          exact ⟨justified.1 noError, undisturbed⟩
      · cases taken
        trivial
  | resolveRead name =>
      simp only [isShell] at justified taken
      cases taken
      exact justified.1
  | idle =>
      simp only [isShell] at taken
      cases taken
  | pinged target =>
      simp only [isShell] at taken
      cases taken
  | resolved name address =>
      simp only [isShell] at taken
      cases taken
  | pingSequence target =>
      simp only [isShell] at taken
      cases taken
      trivial
  | pingTarget target =>
      simp only [isShell] at taken
      cases taken
      rfl
  | resolveName name =>
      simp only [isShell] at taken
      split at taken
      · cases taken
        trivial
      · cases taken
        rfl
  | _ =>
      simp only [isShell] at justified taken
      cases taken
      exact justified

theorem step_justified {action : Action} (guarded : Guarded world)
    (justified : Justified world) (undisturbed : Undisturbed world action)
    (taken : step world action = some world') : Justified world' := by
  cases action with
  | ping target =>
      change startCall world (.pingSequence target) = some world' at taken
      unfold startCall at taken
      split at taken
      · cases taken
        trivial
      · cases taken
        trivial
      · cases taken
        trivial
      · cases taken
  | resolve name =>
      change startCall world (.resolveName name) = some world' at taken
      unfold startCall at taken
      split at taken
      · cases taken
        trivial
      · cases taken
        trivial
      · cases taken
        trivial
      · cases taken
  | advance random => exact advance_justified justified undisturbed taken
  | timeout =>
      change giveUp world = some world' at taken
      unfold giveUp at taken
      unfold Justified at justified
      split at taken
      · cases taken
        trivial
      · cases taken
        trivial
      · cases taken
        trivial
      · cases taken
        trivial
      · next name attempts isShell =>
          simp only [isShell] at justified
          cases taken
          exact justified.1
      · cases taken
  | check datagram =>
      change checkDatagram world datagram = some world' at taken
      unfold checkDatagram at taken
      split at taken
      · cases taken
      · cases datagram with
        | icmp source message =>
            dsimp only at taken
            split at taken
            · next accepted =>
                cases taken
                exact checkEcho_justified guarded justified accepted
            · cases taken
              exact justified
        | udp source header payload unset =>
            dsimp only at taken
            split at taken
            · next port =>
                split at taken
                · next address status accepted =>
                    cases taken
                    exact checkDns_justified guarded justified port accepted
                · cases taken
                  exact justified
            · cases taken
              exact justified
  | publish now =>
      change publish world now = some world' at taken
      unfold publish at taken
      split at taken
      · cases taken
      · next isPending =>
          cases taken
          exact publishEcho_justified isPending justified
      · next address status isPending =>
          cases taken
          exact publishDns_justified isPending justified

/-- While the shell task is at a statement outside both waits, nothing is accepted. -/
theorem Guarded.unarmed (guarded : Guarded world)
    (noPing : ∀ target, world.shell ≠ .pingWait target ∧ world.shell ≠ .pingStop target)
    (noResolve : ∀ name, (∀ attempts, world.shell ≠ .resolveWait name attempts) ∧
      world.shell ≠ .resolveStop name) :
    world.echo.waiting = false ∧ world.dns.waiting = false := by
  refine ⟨?_, ?_⟩
  · rw [← Bool.not_eq_true]
    intro waiting
    rcases guarded.echo waiting with ⟨target, isShell | isShell⟩
    · exact (noPing target).1 isShell
    · exact (noPing target).2 isShell
  · rw [← Bool.not_eq_true]
    intro waiting
    rcases guarded.dns waiting with ⟨name, ⟨attempts, isShell⟩ | isShell⟩
    · exact (noResolve name).1 attempts isShell
    · exact (noResolve name).2 isShell

theorem Guarded.of_unarmed (noEcho : world.echo.waiting = false)
    (noDns : world.dns.waiting = false) : Guarded world := by
  refine ⟨fun waiting => ?_, fun waiting => ?_⟩
  · rw [noEcho] at waiting
    cases waiting
  · rw [noDns] at waiting
    cases waiting

/-- Inside a call of `net_ping` no response is accepted. -/
theorem Guarded.ping_only (guarded : Guarded world) {target : Ipv4Addr}
    (isShell : world.shell = .pingWait target ∨ world.shell = .pingStop target) :
    world.dns.waiting = false := by
  rw [← Bool.not_eq_true]
  intro waiting
  rcases guarded.dns waiting with ⟨name, ⟨attempts, other⟩ | other⟩
  · rcases isShell with isShell | isShell
    · rw [isShell] at other
      cases other
    · rw [isShell] at other
      cases other
  · rcases isShell with isShell | isShell
    · rw [isShell] at other
      cases other
    · rw [isShell] at other
      cases other

/-- Inside a call of `net_resolve` no echo reply is accepted. -/
theorem Guarded.resolve_only (guarded : Guarded world) {name : CString}
    (isShell : (∃ attempts, world.shell = .resolveWait name attempts) ∨
      world.shell = .resolveStop name) :
    world.echo.waiting = false := by
  rw [← Bool.not_eq_true]
  intro waiting
  rcases guarded.echo waiting with ⟨target, other | other⟩
  · rcases isShell with ⟨attempts, isShell⟩ | isShell
    · rw [isShell] at other
      cases other
    · rw [isShell] at other
      cases other
  · rcases isShell with ⟨attempts, isShell⟩ | isShell
    · rw [isShell] at other
      cases other
    · rw [isShell] at other
      cases other

theorem advance_guarded {random : UInt32} (guarded : Guarded world)
    (taken : advance world random = some world') : Guarded world' := by
  unfold advance at taken
  cases isShell : world.shell with
  | pingArm target =>
      have unarmed := guarded.unarmed (by simp [isShell]) (by simp [isShell])
      simp only [isShell] at taken
      cases taken
      refine ⟨fun _ => ⟨target, Or.inl rfl⟩, fun waiting => ?_⟩
      exact absurd (unarmed.2.symm.trans waiting) (by decide)
  | pingWait target =>
      have noDns := guarded.ping_only (Or.inl isShell)
      simp only [isShell] at taken
      split at taken
      · cases taken
        refine ⟨fun _ => ⟨target, Or.inr rfl⟩, fun waiting => ?_⟩
        exact absurd (noDns.symm.trans waiting) (by decide)
      · cases taken
  | pingStop target =>
      have noDns := guarded.ping_only (Or.inr isShell)
      simp only [isShell] at taken
      cases taken
      exact Guarded.of_unarmed rfl noDns
  | resolveArm name attempts =>
      have unarmed := guarded.unarmed (by simp [isShell]) (by simp [isShell])
      simp only [isShell] at taken
      cases taken
      refine ⟨fun waiting => ?_, fun _ => ⟨name, Or.inl ⟨attempts, rfl⟩⟩⟩
      exact absurd (unarmed.1.symm.trans waiting) (by decide)
  | resolveWait name attempts =>
      have noEcho := guarded.resolve_only (Or.inl ⟨attempts, isShell⟩)
      simp only [isShell] at taken
      split at taken
      · cases taken
        refine ⟨fun waiting => ?_, fun _ => ⟨name, Or.inr rfl⟩⟩
        exact absurd (noEcho.symm.trans waiting) (by decide)
      · cases taken
  | resolveStop name =>
      have noEcho := guarded.resolve_only (Or.inr isShell)
      simp only [isShell] at taken
      cases taken
      exact Guarded.of_unarmed noEcho rfl
  | resolveId name attempts =>
      have unarmed := guarded.unarmed (by simp [isShell]) (by simp [isShell])
      simp only [isShell] at taken
      cases attempts with
      | zero =>
          cases taken
          exact Guarded.of_unarmed unarmed.1 unarmed.2
      | succ attempts =>
          cases taken
          exact Guarded.of_unarmed unarmed.1 unarmed.2
  | resolveStatus name | resolveName name =>
      have unarmed := guarded.unarmed (by simp [isShell]) (by simp [isShell])
      simp only [isShell] at taken
      split at taken
      · cases taken
        exact Guarded.of_unarmed unarmed.1 unarmed.2
      · cases taken
        exact Guarded.of_unarmed unarmed.1 unarmed.2
  | idle | pinged _ | resolved _ _ =>
      simp only [isShell] at taken
      cases taken
  | _ =>
      have unarmed := guarded.unarmed (by simp [isShell]) (by simp [isShell])
      simp only [isShell] at taken
      cases taken
      exact Guarded.of_unarmed unarmed.1 unarmed.2

theorem startCall_guarded {shell : Shell} (guarded : Guarded world)
    (taken : startCall world shell = some world') : Guarded world' := by
  unfold startCall at taken
  split at taken
  · next isShell =>
      have unarmed := guarded.unarmed (by simp [isShell]) (by simp [isShell])
      cases taken
      exact Guarded.of_unarmed unarmed.1 unarmed.2
  · next isShell =>
      have unarmed := guarded.unarmed (by simp [isShell]) (by simp [isShell])
      cases taken
      exact Guarded.of_unarmed unarmed.1 unarmed.2
  · next isShell =>
      have unarmed := guarded.unarmed (by simp [isShell]) (by simp [isShell])
      cases taken
      exact Guarded.of_unarmed unarmed.1 unarmed.2
  · cases taken

theorem giveUp_guarded (guarded : Guarded world) (taken : giveUp world = some world') :
    Guarded world' := by
  unfold giveUp at taken
  split at taken
  · next isShell =>
      have unarmed := guarded.unarmed (by simp [isShell]) (by simp [isShell])
      cases taken
      exact Guarded.of_unarmed unarmed.1 unarmed.2
  · next isShell =>
      have unarmed := guarded.unarmed (by simp [isShell]) (by simp [isShell])
      cases taken
      exact Guarded.of_unarmed unarmed.1 unarmed.2
  · next isShell =>
      have unarmed := guarded.unarmed (by simp [isShell]) (by simp [isShell])
      cases taken
      exact Guarded.of_unarmed unarmed.1 unarmed.2
  · next isShell =>
      have noDns := guarded.ping_only (Or.inl isShell)
      cases taken
      exact Guarded.of_unarmed rfl noDns
  · next attempts isShell =>
      have noEcho := guarded.resolve_only (Or.inl ⟨attempts, isShell⟩)
      cases taken
      exact Guarded.of_unarmed noEcho rfl
  · cases taken

/-- The receive task changes neither flag that the check looks at first. -/
theorem checkDatagram_flags {datagram : Datagram}
    (taken : checkDatagram world datagram = some world') :
    world'.echo = world.echo ∧ world'.dns = world.dns ∧ world'.shell = world.shell := by
  unfold checkDatagram at taken
  split at taken
  · cases taken
  · cases datagram with
    | icmp source message =>
        dsimp only at taken
        split at taken
        · cases taken
          exact ⟨rfl, rfl, rfl⟩
        · cases taken
          exact ⟨rfl, rfl, rfl⟩
    | udp source header payload unset =>
        dsimp only at taken
        split at taken
        · split at taken
          · cases taken
            exact ⟨rfl, rfl, rfl⟩
          · cases taken
            exact ⟨rfl, rfl, rfl⟩
        · cases taken
          exact ⟨rfl, rfl, rfl⟩

theorem publish_flags {now : UInt32} (taken : publish world now = some world') :
    world'.echo.waiting = world.echo.waiting ∧ world'.dns.waiting = world.dns.waiting ∧
      world'.shell = world.shell := by
  unfold publish at taken
  split at taken
  · cases taken
  · cases taken
    exact ⟨rfl, rfl, rfl⟩
  · cases taken
    exact ⟨rfl, rfl, rfl⟩

theorem Guarded.of_same (guarded : Guarded world)
    (sameEcho : world'.echo.waiting = world.echo.waiting)
    (sameDns : world'.dns.waiting = world.dns.waiting)
    (sameShell : world'.shell = world.shell) : Guarded world' := by
  refine ⟨fun waiting => ?_, fun waiting => ?_⟩
  · rw [sameShell]
    exact guarded.echo (sameEcho.symm.trans waiting)
  · rw [sameShell]
    exact guarded.dns (sameDns.symm.trans waiting)

theorem step_guarded {action : Action} (guarded : Guarded world)
    (taken : step world action = some world') : Guarded world' := by
  cases action with
  | ping target => exact startCall_guarded guarded taken
  | resolve name => exact startCall_guarded guarded taken
  | advance random => exact advance_guarded guarded taken
  | timeout => exact giveUp_guarded guarded taken
  | check datagram =>
      have same := checkDatagram_flags taken
      exact guarded.of_same (by rw [same.1]) (by rw [same.2.1]) same.2.2
  | publish now =>
      have same := publish_flags taken
      exact guarded.of_same same.1 same.2.1 same.2.2

end Steps

/-! ## Whole runs -/

theorem reached_guarded {allowed : World → Action → Prop} {world : World}
    (reached : Reached allowed world) : Guarded world := by
  induction reached with
  | boot noEcho noDns _ _ => exact Guarded.of_unarmed noEcho noDns
  | step action _ _ taken guarded => exact step_guarded guarded taken

theorem reached_justified {world : World} (reached : Reached Undisturbed world) :
    Justified world := by
  induction reached with
  | boot _ _ _ idle =>
      unfold Justified
      simp only [idle]
  | step action before isAllowed taken justified =>
      exact step_justified (reached_guarded before) justified isAllowed taken

theorem Justified.matched {world : World} (justified : Justified world) :
    Matched world := by
  unfold Justified at justified
  unfold Matched
  cases isShell : world.shell with
  | pinged target =>
      simp only [isShell] at justified ⊢
      exact justified
  | resolved name address =>
      simp only [isShell] at justified ⊢
      exact justified
  | _ => trivial

/-- In a run in which the shell task never resets a request while the receive task holds
an accepted datagram of the same kind, every call that returns `NET_OK` was answered. -/
theorem reached_matched {world : World} (reached : Reached Undisturbed world) :
    Matched world :=
  (reached_justified reached).matched

/-- Before the first call. -/
def quiet : World where
  echo := ⟨ipv4 0 0 0 0, 0, false, false, 0⟩
  dns := ⟨.empty, ipv4 0 0 0 0, 0, 0, false, false, none⟩
  dnsServer := ipv4 10 0 2 3
  pending := none
  shell := .idle
  heard := []

def hostA : Ipv4Addr := ipv4 10 0 2 2

def hostB : Ipv4Addr := ipv4 10 0 2 9

/-- The reply of the first host to the first request. -/
def firstReply : Datagram := .icmp hostA ⟨0, 0, pingId, 1, []⟩

theorem ping_of_hostA_matched :
    ∃ world, Reached Undisturbed world ∧ world.shell = .pinged hostA ∧
      Matched world := by
  have boot : Reached Undisturbed quiet := .boot rfl rfl rfl rfl
  have called := Reached.step (.ping hostA) boot trivial rfl
  have numbered := Reached.step (.advance 0) called trivial rfl
  have aimed := Reached.step (.advance 0) numbered trivial rfl
  have cleared := Reached.step (.advance 0) aimed (by nofun) rfl
  have armed := Reached.step (.advance 0) cleared trivial rfl
  have checked := Reached.step (.check firstReply) armed trivial rfl
  have published := Reached.step (.publish 5) checked trivial rfl
  have woken := Reached.step (.advance 0) published trivial rfl
  have stopped := Reached.step (.advance 0) woken trivial rfl
  exact ⟨_, stopped, rfl, reached_matched stopped⟩

/-- A run of actions. -/
def run (world : World) : List Action → Option World
  | [] => some world
  | action :: actions => (step world action).bind fun world => run world actions

theorem reached_of_run {actions : List Action} :
    ∀ {world world' : World}, Reached (fun _ _ => True) world →
      run world actions = some world' → Reached (fun _ _ => True) world' := by
  induction actions with
  | nil =>
      intro world world' reached ends
      cases ends
      exact reached
  | cons action actions ih =>
      intro world world' reached ends
      rcases Option.bind_eq_some_iff.mp ends with ⟨next, taken, rest⟩
      exact ih (Reached.step action reached trivial taken) rest

/-- The reply of the first host is accepted just before its call times out, and
published after the call for the second host has reset the flag. -/
def latePublication : List Action :=
  [.ping hostA, .advance 0, .advance 0, .advance 0, .advance 0, .check firstReply,
    .timeout, .ping hostB, .advance 0, .advance 0, .advance 0, .publish 9, .advance 0,
    .advance 0, .advance 0]

theorem late_publication_unmatched :
    ¬ ∀ world, Reached (fun _ _ => True) world → Matched world := by
  intro allMatched
  have ends : ∃ world, run quiet latePublication = some world ∧
      world.shell = .pinged hostB ∧ world.heard = [] := ⟨_, rfl, rfl, rfl⟩
  rcases ends with ⟨world, isRun, isShell, nothing⟩
  have reached := reached_of_run (.boot rfl rfl rfl rfl) isRun
  have matched := allMatched world reached
  unfold Matched at matched
  rw [isShell] at matched
  rcases matched with ⟨message, member, _⟩
  rw [nothing] at member
  exact List.not_mem_nil member

end Katela.Net
