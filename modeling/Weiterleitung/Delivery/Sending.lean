/-
# `Delivery.Sending` — what the relay does on the network

The peers answer as they like, and not the same way twice.  Whatever they answer, a run of
`send` keeps to a discipline (`Relay.Permits`): it dials where its settings or the MX records
say, or the domain itself where the records name no host; it falls back to clear text only from
a peer that has just told it has no STARTTLS; it transmits this message and no other, signed if
there is a signer; and after a peer took the message it does nothing more.

    a transmission over a link                    (`scripted_transmit`)
    a delivery over TLS or in clear text          (`scripted_deliver`)
    the loop over the hosts                       (`scripted_tryHosts`)
    `Ok` is that exactly one peer took it         (`sends_once`)
-/
import Mathlib
import Weiterleitung.Delivery.Relay
import Weiterleitung.Lib.Trail

namespace Weiterleitung.Outbound

open Text Prog

/-! ## The discipline -/

/-- A peer took a message. -/
def Taken : Asked NetOp NetRes → Prop
  | ⟨.send _ _, .ok _⟩ | ⟨.sendSigned _ _ _, .ok _⟩ => True
  | _ => False

/-- The last answer. -/
def EndsWith (trail : Trail NetOp NetRes) (e : Asked NetOp NetRes) :
    Prop := ∃ before, trail = before ++ [e]

theorem endsWith_concat (trail : Trail NetOp NetRes) (e : Asked NetOp NetRes) :
    EndsWith (trail ++ [e]) e := ⟨trail, rfl⟩

/-- The connection has just been made. -/
def Linked (trail : Trail NetOp NetRes) (client : SmtpClient) : Prop :=
  if client.tls then EndsWith trail ⟨.connect client.builder, .ok ()⟩
  else EndsWith trail ⟨.connectPlain client.builder, .ok ()⟩

/-- Nobody has taken the message yet. -/
def Untaken (trail : Trail NetOp NetRes) : Prop := ∀ e ∈ trail, ¬ Taken e

theorem untaken_nil : Untaken [] := fun e he => by cases he

theorem Untaken.concat {trail : Trail NetOp NetRes} {e : Asked NetOp NetRes}
    (h : Untaken trail) (he : ¬ Taken e) :
    Untaken (trail ++ [e]) := by
  intro e' he'
  rcases List.mem_append.mp he' with he' | he'
  · exact h e' he'
  · exact List.mem_singleton.mp he' ▸ he

namespace Relay

variable (relay : Relay)

/-- Where mail may go: to the smarthost, or to port 25 of a host of the lookup, which is the
domain itself where the lookup failed or listed no usable exchange. -/
inductive Goes (trail : Trail NetOp NetRes) : Str → UInt16 → Prop
  | smarthost (settings : RelaySettings) : relay.settings.mode = .relay →
      relay.settings.relay = some settings →
      trail = [] → Goes trail settings.host settings.port
  | exchange (domain host : Str) (records : Except Str (List MxRecord))
      (rest : Trail NetOp NetRes) :
      relay.settings.mode = .direct → trail = ⟨.mxLookup domain, records⟩ :: rest →
      host ∈ mxHosts domain records →
      Goes trail host 25

/-- As what a host is dialled.  Only the smarthost is told the credentials, and its
certificate must be valid. -/
inductive Dials : SmtpClientBuilder → Prop
  | smarthost (settings : RelaySettings) : relay.settings.mode = .relay →
      relay.settings.relay = some settings →
      Dials (relay.relayBuilder settings)
  | exchange (host : Str) : relay.settings.mode = .direct → Dials (relay.mxBuilder host)

/-- What `send` may ask for after a trail. -/
def Permits (envelopeFrom envelopeTo : Str) (raw : Bytes) (trail : Trail NetOp NetRes)
    (o : NetOp) : Prop :=
  Untaken trail ∧
    match o with
    | .mxLookup domain =>
        relay.settings.mode = .direct ∧ trail = [] ∧ ∃ user,
          rsplitOnce '@' envelopeTo = some (user, domain)
    | .newClient host port => relay.Goes trail host port
    | .connect builder =>
        EndsWith trail ⟨.newClient builder.host builder.port, .ok ()⟩ ∧ relay.Dials builder
    | .connectPlain builder => EndsWith trail ⟨.connect builder, .error .missingStartTls⟩
    | .send client message =>
        message = ⟨envelopeFrom, [envelopeTo], raw⟩ ∧ relay.signer = none ∧ Linked trail client
    | .sendSigned client message signer =>
        message = ⟨envelopeFrom, [envelopeTo], raw⟩ ∧ relay.signer = some signer ∧
          Linked trail client

/-- `Ok` is that the last answer was that the message is taken; before it nobody took it. -/
def Honest (trail : Trail NetOp NetRes) : Except Str Unit → Prop
  | .ok _ => ∃ before e, trail = before ++ [e] ∧ Untaken before ∧ Taken e
  | .error _ => Untaken trail

def Told (before : Trail NetOp NetRes) (r : Except Str Unit) (trail : Trail NetOp NetRes) :
    Prop :=
  before <+: trail ∧ Honest trail r

theorem Told.later {before before' trail : Trail NetOp NetRes} {r : Except Str Unit}
    (h : Told before' r trail) (hp : before <+: before') :
    Told before r trail := ⟨hp.trans h.1, h.2⟩

/-! ## The source -/

section
variable {relay} {envelopeFrom envelopeTo : Str} {raw : Bytes} {trail : Trail NetOp NetRes}

theorem scripted_transmit (hnone : Untaken trail) {client : SmtpClient}
    (hlinked : Linked trail client) :
    Scripted (relay.Permits envelopeFrom envelopeTo raw) (Told trail)
      (relay.transmit client ⟨envelopeFrom, [envelopeTo], raw⟩).run trail := by
  unfold Relay.transmit
  cases hsigner : relay.signer with
  | some signer =>
      refine minds_mapErr
        ⟨⟨hnone, rfl, hsigner, hlinked⟩, fun r => ⟨List.prefix_append _ _, ?_⟩⟩
      cases r with
      | ok u => exact ⟨trail, _, rfl, hnone, trivial⟩
      | error e => exact hnone.concat id
  | none =>
      refine minds_mapErr
        ⟨⟨hnone, rfl, hsigner, hlinked⟩, fun r => ⟨List.prefix_append _ _, ?_⟩⟩
      cases r with
      | ok u => exact ⟨trail, _, rfl, hnone, trivial⟩
      | error e => exact hnone.concat id

theorem scripted_deliver {builder : SmtpClientBuilder} (hnone : Untaken trail)
    (hdials : relay.Dials builder)
    (hclient : EndsWith trail ⟨.newClient builder.host builder.port, .ok ()⟩) :
    Scripted (relay.Permits envelopeFrom envelopeTo raw) (Told trail)
      (relay.deliver builder ⟨envelopeFrom, [envelopeTo], raw⟩).run trail := by
  unfold Relay.deliver
  rw [run_lift_bind]
  refine ⟨⟨hnone, hclient, hdials⟩, fun connected => ?_⟩
  have hnone' : Untaken (trail ++ [⟨.connect builder, connected⟩]) := hnone.concat id
  have hlater :=
    List.prefix_append trail [(⟨.connect builder, connected⟩ : Asked NetOp NetRes)]
  rcases connected with e | u
  · cases e with
    | other e => exact ⟨hlater, hnone'⟩
    | missingStartTls =>
        -- the fallback to clear text
        refine ⟨⟨hnone', endsWith_concat _ _⟩, fun plain => ?_⟩
        have hnone'' := hnone'.concat (e := ⟨.connectPlain builder, plain⟩) id
        have hlater' :=
          hlater.trans
            (List.prefix_append _ [(⟨.connectPlain builder, plain⟩ : Asked NetOp NetRes)])
        cases plain with
        | error e => exact ⟨hlater', hnone''⟩
        | ok u =>
            exact minds_imp (fun _ _ h => h.later hlater')
              (scripted_transmit hnone''
                (show Linked _ ⟨builder, false⟩ from endsWith_concat _ _))
  · exact minds_imp (fun _ _ h => h.later hlater)
      (scripted_transmit hnone' (show Linked _ ⟨builder, true⟩ from endsWith_concat _ _))

/-- The loop of `send`: a host that does not take the message leaves it to the next. -/
theorem scripted_tryHosts (hmode : relay.settings.mode = .direct) {domain : Str}
    {records : Except Str (List MxRecord)}
    (hosts : List Str) (hhosts : ∀ host ∈ hosts, host ∈ mxHosts domain records) :
    ∀ (last : Option Str)
    (trail : Trail NetOp NetRes), Untaken trail →
    (∃ rest, trail = ⟨.mxLookup domain, records⟩ :: rest) →
    Scripted (relay.Permits envelopeFrom envelopeTo raw) (Told trail)
      (relay.tryHosts ⟨envelopeFrom, [envelopeTo], raw⟩ domain last hosts).run trail := by
  induction hosts with
  | nil => exact fun last trail hnone _ => ⟨List.prefix_refl _, hnone⟩
  | cons host hosts ih =>
      rintro last trail hnone ⟨rest, htrail⟩
      unfold tryHosts
      refine ⟨⟨hnone, .exchange domain host records rest hmode htrail
        (hhosts host List.mem_cons_self)⟩, fun made => ?_⟩
      have hnone' : Untaken (trail ++ [⟨.newClient host 25, made⟩]) := hnone.concat id
      have hlater :=
        List.prefix_append trail [(⟨.newClient host 25, made⟩ : Asked NetOp NetRes)]
      cases made with
      | error e => exact ⟨hlater, hnone'⟩
      | ok u =>
          show Scripted _ _
            (ExceptT.run (ExceptT.lift (relay.deliver (relay.mxBuilder host) _).run >>= _)) _
          rw [run_lift_bind]
          refine minds_bind (fun delivered t htold => ?_)
            (scripted_deliver hnone' (.exchange host hmode) (endsWith_concat _ _))
          cases delivered with
          | ok u => exact htold.later hlater
          | error e =>
              obtain ⟨more, rfl⟩ := hlater.trans htold.1
              have hnone'' : Untaken (trail ++ more) := htold.2
              refine minds_imp (fun _ _ h => h.later (List.prefix_append _ _)) (ih
                (fun host hhost => hhosts host (List.mem_cons_of_mem _ hhost))
                (some e) _ hnone'' ⟨rest ++ more, ?_⟩)
              rw [htrail, List.cons_append]

theorem scripted_sendRelay (hmode : relay.settings.mode = .relay) {settings : RelaySettings}
    (hsettings : relay.settings.relay = some settings) :
    Scripted (relay.Permits envelopeFrom envelopeTo raw) (Told [])
      (relay.sendRelay settings ⟨envelopeFrom, [envelopeTo], raw⟩).run [] := by
  unfold sendRelay
  refine ⟨⟨untaken_nil, .smarthost settings hmode hsettings rfl⟩, fun made => ?_⟩
  have hnone : Untaken [⟨.newClient settings.host settings.port, made⟩] :=
    untaken_nil.concat id
  cases made with
  | error e => exact ⟨List.nil_prefix, hnone⟩
  | ok u =>
      exact minds_imp (fun _ _ h => h.later List.nil_prefix)
        (scripted_deliver hnone (.smarthost settings hmode hsettings) (endsWith_concat [] _))

theorem scripted_sendDirect (hmode : relay.settings.mode = .direct) :
    Scripted (relay.Permits envelopeFrom envelopeTo raw) (Told [])
      (relay.sendDirect envelopeTo ⟨envelopeFrom, [envelopeTo], raw⟩).run [] := by
  unfold sendDirect
  cases hdomain : rsplitOnce '@' envelopeTo with
  | none => exact ⟨List.prefix_refl _, untaken_nil⟩
  | some parts =>
      obtain ⟨user, domain⟩ := parts
      refine ⟨⟨untaken_nil, hmode, rfl, user, hdomain⟩, fun records => ?_⟩
      exact minds_imp (fun _ _ h => h.later List.nil_prefix)
        (scripted_tryHosts hmode (mxHosts domain records) (fun _ h => h) none _
          (untaken_nil.concat id) ⟨[], rfl⟩)

theorem scripted_send (relay : Relay) (envelopeFrom envelopeTo : Str) (raw : Bytes) :
    Scripted (relay.Permits envelopeFrom envelopeTo raw)
      (Told []) (relay.send envelopeFrom envelopeTo raw).run [] := by
  unfold send
  dsimp only
  split
  · next hmode => exact scripted_sendRelay hmode (Option.some_get _).symm
  · next hmode => exact scripted_sendDirect hmode

end

/-- Whatever the peers answer, `send` keeps to the discipline.  It returns `Ok` iff a peer took
the message, and then that is the last thing that happens: no other peer gets it. -/
theorem sends_once {σ : Type} (relay : Relay) (envelopeFrom envelopeTo : Str) (raw : Bytes)
    (peers : Handler NetOp NetRes σ) (s : σ) :
    let out := exec (noting peers) (relay.send envelopeFrom envelopeTo raw) (s, [])
    Orderly ⟨relay.Permits envelopeFrom envelopeTo raw, fun _ _ => True⟩ out.2.2 ∧
    (out.1 = .ok () ↔ ∃ e ∈ out.2.2, Taken e) ∧
    ∀ before e after, out.2.2 = before ++ e :: after → Taken e → after = [] := by
  intro out
  obtain ⟨horderly, htold⟩ :=
    orderly_scripted peers (s := s) (scripted_send relay envelopeFrom envelopeTo raw)
      orderly_nil
  have hhonest : Honest out.2.2 out.1 := htold.2
  refine ⟨horderly, ⟨fun hok => ?_, ?_⟩, fun before e after htrail htaken => ?_⟩
  · rw [hok] at hhonest
    obtain ⟨before, e, htrail, -, htaken⟩ := hhonest
    exact ⟨e, htrail ▸ List.mem_append_right _ List.mem_cons_self, htaken⟩
  · rintro ⟨e, he, htaken⟩
    cases hr : out.1 with
    | ok u => rfl
    | error e' =>
        rw [hr] at hhonest
        exact absurd htaken (hhonest e he)
  · cases after with
    | nil => rfl
    | cons next after =>
        -- what comes next was allowed after the message was taken
        have hnext : Untaken (before ++ [e]) := by
          refine (horderly (before ++ [e]) next after ?_).1.1
          rw [List.append_assoc]
          exact htrail
        exact absurd htaken (hnext e (List.mem_append_right _ List.mem_cons_self))

end Relay

end Weiterleitung.Outbound
