/-
# `Delivery.Relay` — does direct delivery try every usable MX?

The relay looks up the MX records of the recipient's domain and goes through their hosts, the
most preferred ones first.  The libraries that look up, connect and transmit are an oracle; a
run leaves a log of what they were asked.

    a delivery reaches its host only                              (`exec_deliver`)
    the loop goes through the hosts one after the other, until
      one accepts or its client cannot be made                   (`exec_tryHosts`)
    the worker's operation is answered with what comes of it       (`answer_send`)
    every host is tried as it should be
      ⟺  the domain publishes nothing, or a usable host is
          found and none is left behind one without a client
                                                            (`tries_every_mx_iff`)

A domain that publishes the null exchange only is dialled itself (`null_mx_dialled`).
-/
import Mathlib
import Weiterleitung.Lib.Keyed
import Weiterleitung.Lib.Prog
import Weiterleitung.Lib.Text
import Weiterleitung.Lib.Tries
import Weiterleitung.Lib.Utf8
import Weiterleitung.Store.Op

namespace Weiterleitung.Outbound

open Text Prog Tries Utf8

/-! ## The settings -/

structure RelaySettings where
  host : Str
  port : UInt16
  username : Option Str
  password : Option Str
  implicitTls : Bool

inductive DeliveryMode where
  | relay
  | direct
  deriving DecidableEq

/-- Text of `DeliverySettings` that the relay reads. -/
structure DeliverySettings where
  mode : DeliveryMode
  relay : Option RelaySettings
  ehloHostname : Str

structure DkimSigner where
  domain : Str
  selector : Str

/-- What `Relay::build` lets through: in relay mode there are settings for it. -/
structure Relay where
  settings : DeliverySettings
  signer : Option DkimSigner
  valid : settings.mode = .relay → settings.relay.isSome = true

/-- `signer` is what `build_signer` makes of the key on disk. -/
def Relay.build (settings : DeliverySettings) (signer : Except Str (Option DkimSigner)) :
    Except Str Relay :=
  if h : settings.mode = .relay → settings.relay.isSome = true then
    signer.map fun s => ⟨settings, s, h⟩
  else
    .error "`delivery.mode` is `relay` but no `delivery.relay` block was configured"

/-! ## The libraries -/

/-- An MX record; `exchange` is what `to_utf8` prints. -/
structure MxRecord where
  preference : UInt16
  exchange : Str
  deriving DecidableEq

structure SmtpClientBuilder where
  host : Str
  port : UInt16
  implicitTls : Bool
  allowInvalidCerts : Bool
  heloHost : Str
  timeout : Nat
  credentials : Option (Str × Str)

/-- A connection, over TLS or in clear text. -/
structure SmtpClient where
  builder : SmtpClientBuilder
  tls : Bool

structure Message where
  mailFrom : Str
  rcptTo : List Str
  body : Bytes

inductive ConnectError where
  | missingStartTls
  | other (e : Str)

/-- What the libraries are asked. -/
inductive NetOp where
  | mxLookup (domain : Str)
  | newClient (host : Str) (port : UInt16)
  | connect (builder : SmtpClientBuilder)
  | connectPlain (builder : SmtpClientBuilder)
  | send (client : SmtpClient) (message : Message)
  | sendSigned (client : SmtpClient) (message : Message) (signer : DkimSigner)

abbrev NetRes : NetOp → Type
  | .mxLookup _ => Except Str (List MxRecord)
  | .newClient _ _ | .connectPlain _ | .send _ _ | .sendSigned _ _ _ => Except Str Unit
  | .connect _ => Except ConnectError Unit

abbrev Sending := Fallible Str NetOp NetRes

def SmtpClientBuilder.new (host : Str) (port : UInt16) : Sending Unit :=
  ExceptT.mk (op (NetOp.newClient host port))

def SmtpClientBuilder.connect (builder : SmtpClientBuilder) :
    Fallible ConnectError NetOp NetRes Unit :=
  ExceptT.mk (op (NetOp.connect builder))

def SmtpClientBuilder.connectPlain (builder : SmtpClientBuilder) : Sending Unit :=
  ExceptT.mk (op (NetOp.connectPlain builder))

def SmtpClient.send (client : SmtpClient) (message : Message) : Sending Unit :=
  ExceptT.mk (op (NetOp.send client message))

def SmtpClient.sendSigned (client : SmtpClient) (message : Message) (signer : DkimSigner) :
    Sending Unit :=
  ExceptT.mk (op (NetOp.sendSigned client message signer))

/-! ## The source -/

/-- `CONNECT_TIMEOUT`, in seconds. -/
def connectTimeout : Nat := 30

namespace Relay

def transmit (relay : Relay) (client : SmtpClient) (message : Message) : Sending Unit :=
  match relay.signer with
  | some signer =>
      mapErr ("Failed to send the DKIM-signed message: ".toList ++ ·)
        (client.sendSigned message signer)
  | none => mapErr ("Failed to send the message: ".toList ++ ·) (client.send message)

/-- Opportunistic TLS: clear text, where the peer offers no STARTTLS. -/
def deliver (relay : Relay) (builder : SmtpClientBuilder) (message : Message) :
    Sending Unit := do
  match ← ExceptT.lift builder.connect.run with
  | .ok () => relay.transmit ⟨builder, true⟩ message
  | .error .missingStartTls => do
      mapErr (fun _ => "Failed to connect over clear text".toList) builder.connectPlain
      relay.transmit ⟨builder, false⟩ message
  | .error (.other e) => throw ("Failed to connect to the SMTP server: ".toList ++ e)

end Relay

/-- The exchanges in the order of their records, the null ones left out. -/
def usable (records : List MxRecord) : List Str :=
  (records.map fun record => trimEndMatches '.' record.exchange).filter
    fun host => !host.isEmpty

/-- A stable sort. -/
def byPreference (records : List MxRecord) : List MxRecord :=
  records.insertionSort fun a b => a.preference.toNat ≤ b.preference.toNat

/-- What `lookup_mx` makes of the answer. -/
def mxHosts (domain : Str) : Except Str (List MxRecord) → List Str
  | .ok records =>
      let hosts := usable (byPreference records)
      -- the fallback to the A record of the domain
      if hosts.isEmpty then [domain] else hosts
  | .error _ => [domain]

def lookupMx (domain : Str) : Sending (List Str) := do
  return mxHosts domain (← ExceptT.lift (op (NetOp.mxLookup domain)))

namespace Relay

/-- The builder of `send` for an MX host. -/
def mxBuilder (relay : Relay) (host : Str) : SmtpClientBuilder :=
  ⟨host, 25, false, true, relay.settings.ehloHostname, connectTimeout, none⟩

/-- The builder of `send` for the smarthost. -/
def relayBuilder (relay : Relay) (settings : RelaySettings) : SmtpClientBuilder :=
  ⟨settings.host, settings.port, settings.implicitTls, false, relay.settings.ehloHostname,
    connectTimeout,
    match settings.username, settings.password with
    | some username, some password => some (username, password)
    | _, _ => none⟩

def invalidHost (host e : Str) : Str := "Invalid MX host `".toList ++ host ++ "`: ".toList ++ e

def noHost (domain : Str) :
    Str := "No MX host accepted mail for `".toList ++ domain ++ "`".toList

/-- The loop of `send`; `lastError` is the error of the last delivery. -/
def tryHosts (relay : Relay) (message : Message) (domain : Str) :
    Option Str → List Str → Sending Unit
  | lastError, [] => throw (lastError.getD (noHost domain))
  | _, host :: hosts => do
      mapErr (invalidHost host) (SmtpClientBuilder.new host 25)
      match ← ExceptT.lift (relay.deliver (relay.mxBuilder host) message).run with
      | .ok () => return ()
      | .error e => tryHosts relay message domain (some e) hosts

def sendRelay (relay : Relay) (settings : RelaySettings) (message : Message) :
    Sending Unit := do
  mapErr ("Invalid relay host: ".toList ++ ·)
    (SmtpClientBuilder.new settings.host settings.port)
  relay.deliver (relay.relayBuilder settings) message

def sendDirect (relay : Relay) (envelopeTo : Str) (message : Message) : Sending Unit := do
  match rsplitOnce '@' envelopeTo with
  | none => throw ("`".toList ++ envelopeTo ++ "` has no domain part".toList)
  | some (_, domain) =>
      let hosts ← lookupMx domain
      relay.tryHosts message domain none hosts

def send (relay : Relay) (envelopeFrom envelopeTo : Str) (raw : Bytes) : Sending Unit :=
  let message : Message := ⟨envelopeFrom, [envelopeTo], raw⟩
  match h : relay.settings.mode with
  | .relay => relay.sendRelay (relay.settings.relay.get (relay.valid h)) message
  | .direct => relay.sendDirect envelopeTo message

end Relay

/-! ## The network -/

/-- What the libraries answer.  `published` is what the domain publishes: a lookup that
succeeds gives that, in some order. -/
structure Network where
  published : Str → List MxRecord
  mxLookup : Str → Except Str (List MxRecord)
  newClient : Str → UInt16 → Except Str Unit
  connect : SmtpClientBuilder → Except ConnectError Unit
  connectPlain : SmtpClientBuilder → Except Str Unit
  send : SmtpClient → Message → Except Str Unit
  sendSigned : SmtpClient → Message → DkimSigner → Except Str Unit
  answered : ∀ domain records, mxLookup domain = .ok records → records.Perm (published domain)

namespace Network

def answer (net : Network) : (o : NetOp) → NetRes o
  | .mxLookup domain => net.mxLookup domain
  | .newClient host port => net.newClient host port
  | .connect builder => net.connect builder
  | .connectPlain builder => net.connectPlain builder
  | .send client message => net.send client message
  | .sendSigned client message signer => net.sendSigned client message signer

abbrev handler (net : Network) : Handler NetOp NetRes (List NetOp) := logged net.answer

def transmits (net : Network) (relay : Relay) (client : SmtpClient) (message : Message) :
    Except Str Unit :=
  match relay.signer with
  | some signer => net.sendSigned client message signer
  | none => net.send client message

/-- A client for the host can be made. -/
def HasClient (net : Network) (host : Str) : Prop := net.newClient host 25 = .ok ()

instance (net : Network) (host : Str) : Decidable (net.HasClient host) :=
  decidable_of_iff ((net.newClient host 25).isOk = true) <| by
    unfold HasClient
    cases net.newClient host 25 <;> simp [Except.isOk, Except.toBool]

/-- The host takes the message, over TLS, or in clear text if it offers no STARTTLS. -/
def Accepts (net : Network) (relay : Relay) (message : Message) (host : Str) : Prop :=
  net.HasClient host ∧
    ((net.connect (relay.mxBuilder host) = .ok () ∧
        net.transmits relay ⟨relay.mxBuilder host, true⟩ message = .ok ()) ∨
      (net.connect (relay.mxBuilder host) = .error .missingStartTls ∧
        net.connectPlain (relay.mxBuilder host) = .ok () ∧
        net.transmits relay ⟨relay.mxBuilder host, false⟩ message = .ok ()))

/-- The hosts that mail for the domain may go to, the most preferred ones first. -/
inductive Listed (net : Network) (domain : Str) : List Str → Prop
  | own : net.published domain = [] → Listed net domain [domain]
  | exchanges {records sorted : List MxRecord} : net.published domain ≠ [] →
      net.mxLookup domain = .ok records → sorted.Perm records →
      (sorted.Pairwise fun a b => a.preference ≤ b.preference) →
      Listed net domain (usable sorted)
  | unknown {e : Str} : net.published domain ≠ [] → net.mxLookup domain = .error e →
      Listed net domain []

end Network

/-! ## The log of a run -/

/-- The host that is reached. -/
def NetOp.host : NetOp → Option Str
  | .connect builder | .connectPlain builder => some builder.host
  | .send client _ | .sendSigned client _ _ => some client.builder.host
  | .mxLookup _ | .newClient _ _ => none

def tried (log : List NetOp) : List Str :=
  log.filterMap fun
    | .newClient host _ => some host
    | _ => none

def contacted (log : List NetOp) : List Str :=
  log.filterMap fun
    | .connect builder => some builder.host
    | _ => none

/-- Of the hosts, in their order, every one is tried until one accepts. -/
structure TriesEvery (net : Network) (relay : Relay) (message : Message) (hosts : List Str)
    (result : Except Str Unit) (log : List NetOp) : Prop where
  inOrder : tried log <+: hosts
  contacts : contacted log = (tried log).filter fun host => net.HasClient host
  only : ∀ o ∈ log, ∀ host, o.host = some host → host ∈ contacted log
  stops : ∀ before host after, contacted log = before ++ host :: after →
    net.Accepts relay message host → after = []
  ok : result = .ok () ↔ ∃ host ∈ hosts, net.Accepts relay message host
  error : ∀ e, result = .error e → ∀ host ∈ hosts, host ∈ tried log

/-- Sending a message to the domain tries every host that mail for the domain may go to. -/
def TriesEveryMx (net : Network) (relay : Relay) (envelopeFrom envelopeTo : Str) (raw : Bytes)
    (domain : Str) : Prop :=
  ∃ hosts, net.Listed domain hosts ∧
    TriesEvery net relay ⟨envelopeFrom, [envelopeTo], raw⟩ hosts
      (exec net.handler (relay.send envelopeFrom envelopeTo raw) []).1
      (exec net.handler (relay.send envelopeFrom envelopeTo raw) []).2

/-! ## One attempt -/

theorem tried_append (ops more : List NetOp) : tried (ops ++ more) = tried ops ++ tried more :=
  List.filterMap_append

theorem contacted_append (ops more : List NetOp) :
    contacted (ops ++ more) = contacted ops ++ contacted more :=
  List.filterMap_append

/-- The operations of attempts at these hosts. -/
structure Attempted (net : Network) (hosts : List Str) (ops : List NetOp) : Prop where
  tried : tried ops = hosts
  contacts : contacted ops = hosts.filter fun host => net.HasClient host
  only : ∀ o ∈ ops, ∀ host, o.host = some host → host ∈ contacted ops

namespace Attempted

variable {net : Network} {hosts others : List Str} {ops more : List NetOp}

theorem nil : Attempted net [] [] := ⟨rfl, rfl, fun _ h => absurd h List.not_mem_nil⟩

theorem append (h : Attempted net hosts ops) (h' : Attempted net others more) :
    Attempted net (hosts ++ others) (ops ++ more) where
  tried := by rw [tried_append, h.tried, h'.tried]
  contacts := by rw [contacted_append, h.contacts, h'.contacts, List.filter_append]
  only := by
    intro o ho host hhost
    rw [contacted_append]
    rcases List.mem_append.mp ho with ho | ho
    · exact List.mem_append_left _ (h.only o ho host hhost)
    · exact List.mem_append_right _ (h'.only o ho host hhost)

end Attempted

/-- What follows on a connection reaches the same host, and tries no other. -/
def Follows (host : Str) (o : NetOp) :
    Prop := o.host = some host ∧ tried [o] = [] ∧ contacted [o] = []

variable {net : Network} {relay : Relay} {message : Message} {host : Str}

theorem uses_transmit (client : SmtpClient) :
    Uses (Follows client.builder.host) (relay.transmit client message).run := by
  unfold Relay.transmit
  cases relay.signer with
  | some signer => exact uses_mapErr ⟨⟨rfl, rfl, rfl⟩, fun _ => trivial⟩
  | none => exact uses_mapErr ⟨⟨rfl, rfl, rfl⟩, fun _ => trivial⟩

/-- What `deliver` does once it is answered. -/
theorem deliver_run (relay : Relay) (message : Message) (builder : SmtpClientBuilder) :
    ∃ rest : Except ConnectError Unit → Prog NetOp NetRes (Except Str Unit),
      (relay.deliver builder message).run = ask (NetOp.connect builder) rest ∧
      ∀ r, Uses (Follows builder.host) (rest r) := by
  refine ⟨_, rfl, ?_⟩
  rintro (e | u)
  · cases e with
    | missingStartTls =>
        refine uses_seq (uses_mapErr ⟨⟨rfl, rfl, rfl⟩, fun _ => trivial⟩) fun _ => ?_
        exact uses_transmit ⟨builder, false⟩
    | other e => exact trivial
  · exact uses_transmit ⟨builder, true⟩

theorem follows_all {ops : List NetOp} (h : ∀ o ∈ ops, Follows host o) :
    tried ops = [] ∧ contacted ops = [] := by
  induction ops with
  | nil => exact ⟨rfl, rfl⟩
  | cons o ops ih =>
      obtain ⟨ho, hops⟩ := List.forall_mem_cons.mp h
      obtain ⟨htried, hcontacted⟩ := ih hops
      rw [← List.singleton_append, tried_append, contacted_append, ho.2.1,
        ho.2.2, htried, hcontacted]
      exact ⟨rfl, rfl⟩

/-- What comes of a delivery to the host. -/
def Network.delivery (net : Network) (relay : Relay) (message : Message) (host : Str) :
    Except Str Unit :=
  (exec net.handler (relay.deliver (relay.mxBuilder host) message) []).1

def Network.outcome (net : Network) (relay : Relay) (message : Message) (host : Str) :
    Tries.Outcome Str :=
  match net.newClient host 25 with
  | .error e => .broken (Relay.invalidHost host e)
  | .ok () =>
      match net.delivery relay message host with
      | .ok () => .accepted
      | .error e => .rejected e

theorem outcome_broken {e : Str} (hclient : net.newClient host 25 = .error e) :
    net.outcome relay message host = .broken (Relay.invalidHost host e) := by
  unfold Network.outcome
  rw [hclient]

theorem outcome_accepted (hclient : net.newClient host 25 = .ok ())
    (hdelivery : net.delivery relay message host = .ok ()) :
    net.outcome relay message host = .accepted := by
  unfold Network.outcome
  rw [hclient]
  dsimp only
  rw [hdelivery]

theorem outcome_rejected {e : Str} (hclient : net.newClient host 25 = .ok ())
    (hdelivery : net.delivery relay message host = .error e) :
    net.outcome relay message host = .rejected e := by
  unfold Network.outcome
  rw [hclient]
  dsimp only
  rw [hdelivery]

theorem breaks_outcome : (net.outcome relay message host).Breaks ↔ ¬net.HasClient host := by
  unfold Network.outcome Network.HasClient
  cases net.newClient host 25 with
  | error e => exact iff_of_true trivial (fun h => by cases h)
  | ok u =>
      refine iff_of_false ?_ (not_not_intro rfl)
      cases net.delivery relay message host with
      | ok u => exact id
      | error e => exact id

theorem mapError_ok {f : Str → Str} {x : Except Str Unit} :
    x.mapError f = .ok () ↔ x = .ok () := by
  cases x with
  | ok u => exact Iff.rfl
  | error e => exact iff_of_false (fun h => by cases h) (fun h => by cases h)

theorem transmit_ok (client : SmtpClient) (log : List NetOp) :
    (exec net.handler (relay.transmit client message) log).1 = .ok () ↔
      net.transmits relay client message = .ok () := by
  unfold Relay.transmit Network.transmits
  cases relay.signer with
  | some signer => exact mapError_ok
  | none => exact mapError_ok

/-- The two ways to deliver. -/
theorem delivery_ok : net.delivery relay message host = .ok () ↔
    (net.connect (relay.mxBuilder host) = .ok () ∧
        net.transmits relay ⟨relay.mxBuilder host, true⟩ message = .ok ()) ∨
      (net.connect (relay.mxBuilder host) = .error .missingStartTls ∧
        net.connectPlain (relay.mxBuilder host) = .ok () ∧
        net.transmits relay ⟨relay.mxBuilder host, false⟩ message = .ok ()) := by
  unfold Network.delivery Relay.deliver
  rw [exec_bind, exec_lift,
    show run net.handler (relay.mxBuilder host).connect.run [] =
      (net.connect (relay.mxBuilder host), [NetOp.connect (relay.mxBuilder host)]) from rfl]
  cases net.connect (relay.mxBuilder host) with
  | ok u =>
      refine Iff.trans (transmit_ok _ _) ⟨fun h => .inl ⟨rfl, h⟩, ?_⟩
      rintro (⟨-, h⟩ | ⟨h, -⟩)
      · exact h
      · cases h
  | error e =>
      cases e with
      | other e =>
          refine iff_of_false (fun h => by cases h) ?_
          rintro (⟨h, -⟩ | ⟨h, -⟩)
          · cases h
          · cases h
      | missingStartTls =>
          dsimp only
          rw [exec_bind, exec_mapErr,
            show exec net.handler (relay.mxBuilder host).connectPlain
              [NetOp.connect (relay.mxBuilder host)] =
              (net.connectPlain (relay.mxBuilder host),
                [NetOp.connect (relay.mxBuilder host),
                  NetOp.connectPlain (relay.mxBuilder host)]) from rfl]
          cases net.connectPlain (relay.mxBuilder host) with
          | ok u =>
              refine Iff.trans (transmit_ok _ _) ⟨fun h => .inr ⟨rfl, rfl, h⟩, ?_⟩
              rintro (⟨h, -⟩ | ⟨-, -, h⟩)
              · cases h
              · exact h
          | error e =>
              refine iff_of_false (fun h => by cases h) ?_
              rintro (⟨h, -⟩ | ⟨-, h, -⟩)
              · cases h
              · cases h

theorem accepts_outcome : (net.outcome relay message host).Accepts ↔
    net.Accepts relay message host := by
  unfold Network.outcome Network.Accepts Network.HasClient
  rw [← delivery_ok]
  cases net.newClient host 25 with
  | error e => exact iff_of_false id (fun h => by cases h.1)
  | ok u =>
      cases net.delivery relay message host with
      | ok u => exact iff_of_true trivial ⟨rfl, rfl⟩
      | error e => exact iff_of_false id (fun h => by cases h.2)

/-! ## The loop -/

/-- Without a client the host is tried, not contacted. -/
theorem Attempted.clientless (hclient : ¬net.HasClient host) :
    Attempted net [host] [NetOp.newClient host 25] where
  tried := rfl
  contacts := by
    rw [List.filter_singleton, decide_eq_false hclient]
    rfl
  only := by
    intro o ho other hother
    rw [List.mem_singleton.mp ho] at hother
    cases hother

/-- With a client it is contacted, and what follows reaches no other. -/
theorem Attempted.connects (relay : Relay) (hclient : net.HasClient host) {more : List NetOp}
    (hmore : ∀ o ∈ more, Follows host o) :
    Attempted net
      [host] (NetOp.newClient host 25 :: NetOp.connect (relay.mxBuilder host) :: more) := by
  obtain ⟨htried, hcontacted⟩ := follows_all hmore
  have hhost : contacted (NetOp.newClient host 25 :: NetOp.connect (relay.mxBuilder host) ::
      more) = [host] :=
    congrArg (host :: ·) hcontacted
  refine ⟨congrArg (host :: ·) htried, ?_, ?_⟩
  · rw [hhost, List.filter_singleton, decide_eq_true hclient]
    rfl
  · intro o ho other hother
    rw [hhost, List.mem_singleton]
    rcases List.mem_cons.mp ho with rfl | ho
    · cases hother
    · rcases List.mem_cons.mp ho with rfl | ho
      · exact (Option.some.inj hother).symm
      · exact Option.some.inj (hother.symm.trans (hmore o ho).1)

/-- A delivery adds the operations of an attempt at its host. -/
theorem exec_deliver (relay : Relay) (message : Message) (hclient : net.HasClient host)
    (log : List NetOp) : ∃ ops,
    exec net.handler (relay.deliver (relay.mxBuilder host) message)
      (log ++ [NetOp.newClient host 25]) = (net.delivery relay message host, log ++ ops) ∧
      Attempted net [host] ops := by
  obtain ⟨rest, hrun, hrest⟩ := deliver_run relay message (relay.mxBuilder host)
  let r := net.connect (relay.mxBuilder host)
  have hops : (exec net.handler (relay.deliver (relay.mxBuilder host) message) []).2 =
      NetOp.connect (relay.mxBuilder host) :: (run net.handler (rest r) []).2 := by
    unfold exec
    rw [hrun, run_ask]
    show (run net.handler (rest r) [NetOp.connect (relay.mxBuilder host)]).2 = _
    rw [run_logged]
    rfl
  have hmore : ∀ o ∈ (run net.handler (rest r) []).2, Follows host o := mem_logged (hrest r)
  refine ⟨NetOp.newClient host 25 :: NetOp.connect (relay.mxBuilder host) ::
    (run net.handler (rest r) []).2, ?_, .connects relay hclient hmore⟩
  rw [exec_logged, hops, List.append_assoc]
  rfl

/-- The loop goes through the hosts, one after the other, and asks for nothing else. -/
theorem exec_tryHosts (net : Network) (relay : Relay) (message : Message) (domain : Str)
    (hosts : List Str) :
    ∀ last log, ∃ ops,
    exec net.handler (relay.tryHosts message domain last hosts) log =
        ((go (net.outcome relay message) (Relay.noHost domain) last hosts).1, log ++ ops) ∧
      Attempted net (go (net.outcome relay message) (Relay.noHost domain) last hosts).2
        ops := by
  induction hosts with
  | nil => exact fun last log => ⟨[], by rw [List.append_nil]; rfl, .nil⟩
  | cons host hosts ih =>
      intro last log
      unfold Relay.tryHosts go
      rw [exec_bind, exec_mapErr,
        show exec net.handler (SmtpClientBuilder.new host 25) log =
          (net.newClient host 25, log ++ [NetOp.newClient host 25]) from rfl]
      cases hclient : net.newClient host 25 with
      | error e =>
          have hnone : ¬net.HasClient host := fun h => by cases hclient.symm.trans h
          rw [outcome_broken hclient]
          exact ⟨[NetOp.newClient host 25], rfl, .clientless hnone⟩
      | ok u =>
          obtain ⟨ops, hexec, hops⟩ := exec_deliver relay message hclient log
          have hrun : run net.handler (relay.deliver (relay.mxBuilder host) message).run
              (log ++ [NetOp.newClient host 25])
              = (net.delivery relay message host, log ++ ops) := hexec
          dsimp only [Except.mapError]
          rw [exec_bind, exec_lift, hrun]
          dsimp only
          cases hdelivery : net.delivery relay message host with
          | ok u =>
              rw [outcome_accepted hclient hdelivery]
              exact ⟨ops, rfl, hops⟩
          | error e =>
              obtain ⟨more, hrest, hmore⟩ := ih (some e) (log ++ ops)
              rw [outcome_rejected hclient hdelivery]
              refine ⟨ops ++ more, ?_, hops.append hmore⟩
              rw [← List.append_assoc]
              exact hrest

/-! ## The hosts -/

/-- The order of the records does not matter to who is among the hosts. -/
theorem usable_perm {records others : List MxRecord} (h : records.Perm others) :
    (usable records).Perm (usable others) :=
  (h.map _).filter _

theorem perm_byPreference (records : List MxRecord) : (byPreference records).Perm records :=
  List.perm_insertionSort _ records

theorem pairwise_byPreference (records : List MxRecord) :
    (byPreference records).Pairwise fun a b => a.preference ≤ b.preference :=
  (pairwise_sorted (fun record : MxRecord => record.preference.toNat) records).imp
    UInt16.le_iff_toNat_le.mpr

theorem mxHosts_ne_nil (domain : Str) (found : Except Str (List MxRecord)) :
    mxHosts domain found ≠ [] := by
  cases found with
  | error e => exact List.cons_ne_nil _ _
  | ok records =>
      unfold mxHosts
      dsimp only
      split
      · exact List.cons_ne_nil _ _
      · rename_i h
        exact fun hnil => h (by rw [hnil]; rfl)

/-- With a usable host, the hosts are the usable ones. -/
theorem mxHosts_usable {domain : Str} {records : List MxRecord} (h : usable records ≠ []) :
    mxHosts domain (.ok records) = usable (byPreference records) := by
  refine if_neg fun hempty => h ?_
  have hperm := usable_perm (perm_byPreference records)
  rw [List.isEmpty_iff.mp hempty] at hperm
  exact hperm.symm.eq_nil

/-- Without one, the domain is the only host. -/
theorem mxHosts_none {domain : Str} {found : Except Str (List MxRecord)}
    (h : ∀ records, found = .ok records → usable records = []) :
    mxHosts domain found = [domain] := by
  cases found with
  | error e => rfl
  | ok records =>
      refine if_pos (List.isEmpty_iff.mpr ?_)
      have hperm := usable_perm (perm_byPreference records)
      rw [h records rfl] at hperm
      exact hperm.eq_nil

/-- A domain that publishes nothing is its own host. -/
theorem mxHosts_own {domain : Str} (h : net.published domain = []) :
    mxHosts domain (net.mxLookup domain) = [domain] := by
  refine mxHosts_none fun records hrecords => ?_
  have hperm := net.answered domain records hrecords
  rw [h] at hperm
  rw [hperm.eq_nil]
  rfl

/-! ## The whole of `send` -/

theorem send_direct (hmode : relay.settings.mode = .direct) (envelopeFrom envelopeTo : Str)
    (raw : Bytes) :
    relay.send envelopeFrom envelopeTo raw = relay.sendDirect envelopeTo
      ⟨envelopeFrom, [envelopeTo], raw⟩ := by
  unfold Relay.send
  split
  · rename_i h
    rw [hmode] at h
    cases h
  · rfl

/-- The lookup reaches no host. -/
theorem Attempted.lookup {hosts : List Str} {ops : List NetOp} (domain : Str)
    (h : Attempted net hosts ops) :
    Attempted net hosts (NetOp.mxLookup domain :: ops) where
  tried := h.tried
  contacts := h.contacts
  only := by
    intro o ho host hhost
    rcases List.mem_cons.mp ho with rfl | ho
    · cases hhost
    · exact h.only o ho host hhost

/-- In direct mode the loop follows the lookup. -/
theorem exec_direct (net : Network) (message : Message) {envelopeTo localPart domain : Str}
    (hto : rsplitOnce '@' envelopeTo = some (localPart, domain)) :
    ∃ r log, exec net.handler (relay.sendDirect envelopeTo message) [] = (r.1, log) ∧
      Ends (net.outcome relay message) (mxHosts domain (net.mxLookup domain)) r ∧
      Attempted net r.2 log := by
  have hends := ends_go (net.outcome relay message) (Relay.noHost domain)
    (mxHosts domain (net.mxLookup domain)) none
  obtain ⟨ops, hexec, hops⟩ :=
    exec_tryHosts net relay message domain (mxHosts domain (net.mxLookup domain))
      none [NetOp.mxLookup domain]
  refine ⟨_, NetOp.mxLookup domain :: ops, ?_, hends, hops.lookup domain⟩
  unfold Relay.sendDirect
  rw [hto]
  exact hexec

/-- The worker asks for `send` as one operation: some chance answers it
with what comes of sending. -/
theorem answer_send (net : Network) (relay : Relay) (messageId envelopeFrom envelopeTo : Str)
    (raw : Bytes) (w : World) : ∃ c,
    answer (Op.send messageId envelopeFrom envelopeTo raw) c w =
      ((exec net.handler (relay.send envelopeFrom envelopeTo raw) []).1,
        { w with relayed := messageId :: w.relayed }) := by
  cases (exec net.handler (relay.send envelopeFrom envelopeTo raw) []).1 with
  | ok u => exact ⟨Chance.calm 0, rfl⟩
  | error e => exact ⟨{ Chance.calm 0 with fails := true, text := e }, rfl⟩

/-! ## Every usable host -/

section
variable {hosts listed : List Str} {r : Except Str Unit × List Str} {log : List NetOp}

/-- Everything is tried exactly if no host is left behind one without a client. -/
theorem ends_iff_unbroken (h : Ends (net.outcome relay message) hosts r) :
    ((r.1 = .ok () ↔ ∃ host ∈ hosts, net.Accepts relay message host) ∧
        ∀ e, r.1 = .error e → ∀ host ∈ hosts, host ∈ r.2) ↔
      Unbroken (net.Accepts relay message) (fun host => ¬net.HasClient host) hosts := by
  have hiff := h.iff
  simp only [accepts_outcome, breaks_outcome] at hiff
  exact hiff

/-- A host that accepts is the last one contacted. -/
theorem contacted_stops (h : Ends (net.outcome relay message) hosts r)
    {before after : List Str} (hcontacted : (r.2.filter fun host => net.HasClient host)
      = before ++ host :: after)
    (ha : net.Accepts relay message host) : after = [] := by
  obtain ⟨front, rest, hr, -, hrest⟩ := List.filter_eq_append_iff.mp hcontacted
  obtain ⟨middle, back, hmiddle, -, -, hback⟩ := List.filter_eq_cons_iff.mp hrest
  rw [hmiddle, ← List.append_assoc] at hr
  rw [← hback, h.stops hr (accepts_outcome.mpr ha)]
  rfl

theorem triesEvery_of_unbroken (h : Ends (net.outcome relay message) hosts r)
    (hlog : Attempted net r.2 log)
    (hun : Unbroken (net.Accepts relay message) (fun host => ¬net.HasClient host) hosts) :
    TriesEvery net relay message hosts r.1 log := by
  obtain ⟨hok, herror⟩ := (ends_iff_unbroken h).mpr hun
  constructor
  case inOrder =>
    rw [hlog.tried]
    exact h.isPrefix
  case contacts =>
    rw [hlog.tried]
    exact hlog.contacts
  case only => exact hlog.only
  case stops =>
    intro before host after hcontacted ha
    exact contacted_stops h (hlog.contacts.symm.trans hcontacted) ha
  case ok => exact hok
  case error =>
    rw [hlog.tried]
    exact herror

theorem unbroken_of_triesEvery (h : Ends (net.outcome relay message) hosts r)
    (hlog : Attempted net r.2 log) (hlisted : listed.Perm hosts)
    (hall : TriesEvery net relay message listed r.1 log) :
    Unbroken (net.Accepts relay message) (fun host => ¬net.HasClient host) hosts := by
  refine (ends_iff_unbroken h).mp ⟨hall.ok.trans ?_, fun e he host hhost => ?_⟩
  · simp only [hlisted.mem_iff]
  · rw [← hlog.tried]
    exact hall.error e he host (hlisted.mem_iff.mpr hhost)

end

/-- Direct delivery tries every usable MX, and the domain itself only if it publishes none,
exactly if the domain publishes none, or the lookup finds a usable one and no host is left
behind one whose client cannot be made, unless a host before that accepts. -/
theorem tries_every_mx_iff (net : Network) (relay : Relay) (envelopeFrom envelopeTo : Str)
    (raw : Bytes) {localPart domain : Str} (hmode : relay.settings.mode = .direct)
    (hto : rsplitOnce '@' envelopeTo = some (localPart, domain)) :
    TriesEveryMx net relay envelopeFrom envelopeTo raw domain ↔
      net.published domain = [] ∨
        ∃ records, net.mxLookup domain = .ok records ∧ usable records ≠ [] ∧
          Unbroken (net.Accepts relay ⟨envelopeFrom, [envelopeTo], raw⟩)
            (fun host => ¬net.HasClient host) (usable (byPreference records)) := by
  obtain ⟨r, log, hexec, hends, hlog⟩ := exec_direct net ⟨envelopeFrom, [envelopeTo], raw⟩ hto
  unfold TriesEveryMx
  rw [send_direct hmode, hexec]
  constructor
  · rintro ⟨hosts, hlisted, hall⟩
    have htried : r.2 <+: hosts := by
      rw [← hlog.tried]
      exact hall.inOrder
    have hne : hosts ≠ [] := fun hnil =>
      hends.tries (mxHosts_ne_nil domain (net.mxLookup domain))
        (List.prefix_nil.mp (hnil ▸ htried))
    cases hlisted with
    | own hpub => exact .inl hpub
    | @exchanges records sorted hpub hlookup hsorted hpairs =>
        have hperm := usable_perm hsorted
        have hfound : usable records ≠ [] := fun hnil => hne (hnil ▸ hperm).eq_nil
        rw [hlookup, mxHosts_usable hfound] at hends
        have hlisted := hperm.trans (usable_perm (perm_byPreference records)).symm
        exact .inr ⟨records, hlookup, hfound, unbroken_of_triesEvery hends hlog hlisted hall⟩
    | unknown hpub hlookup => exact absurd rfl hne
  · intro h
    by_cases hpub : net.published domain = []
    · rw [mxHosts_own hpub] at hends
      exact ⟨[domain], .own hpub, triesEvery_of_unbroken hends hlog
        (unbroken_singleton domain)⟩
    · obtain ⟨records, hlookup, hfound, hun⟩ := h.resolve_left hpub
      rw [hlookup, mxHosts_usable hfound] at hends
      exact ⟨_, .exchanges hpub hlookup (perm_byPreference records)
        (pairwise_byPreference records), triesEvery_of_unbroken hends hlog hun⟩

/-- Every domain publishes these records; some hosts are down. -/
def sampleNetwork (records : List MxRecord) (down : Str → Bool) : Network where
  published _ := records
  mxLookup _ := .ok records
  newClient _ _ := .ok ()
  connect builder := if down builder.host then .error (.other "connection refused") else .ok ()
  connectPlain _ := .ok ()
  send _ _ := .ok ()
  sendSigned _ _ _ := .ok ()
  answered := by
    rintro domain others ⟨⟩
    exact .refl _

def sampleRelay : Relay := ⟨⟨.direct, none, "mail.example.com"⟩, none, fun h => by cases h⟩

/-- The first host is down, the second one accepts. -/
theorem tries_every_mx_sample :
    TriesEveryMx
      (sampleNetwork [⟨20, "backup.example.org."⟩, ⟨10, "mx.example.org."⟩]
        (· = "mx.example.org".toList))
      sampleRelay "me@example.com" "you@example.org" [] "example.org" := by
  have hto : rsplitOnce '@' "you@example.org" = some ("you".toList, "example.org".toList) := by
    decide
  refine (tries_every_mx_iff _ sampleRelay "me@example.com" "you@example.org" [] rfl hto).mpr
    (.inr ⟨_, rfl, by decide, ?_⟩)
  intro before host after _ hclientless
  exact absurd rfl hclientless

/-- The domain publishes that it takes no mail, and is dialled all the same. -/
theorem null_mx_dialled :
    ¬TriesEveryMx (sampleNetwork [⟨0, "."⟩] fun _ => false) sampleRelay "me@example.com"
      "you@example.org" [] "example.org" := by
  rintro ⟨hosts, hlisted, hall⟩
  have hnone : hosts = [] := by
    cases hlisted with
    | own hpub => cases hpub
    | exchanges hpub hlookup hsorted hpairs =>
        cases hlookup
        exact (usable_perm hsorted).eq_nil
    | unknown hpub hlookup => cases hlookup
  have htried := hall.inOrder
  rw [hnone, List.prefix_nil] at htried
  exact absurd htried (by decide +kernel)

end Weiterleitung.Outbound
