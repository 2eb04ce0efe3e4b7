/-
# `Smtp.Rewrite` — header surgery on raw messages

The functions of `smtp::rewrite`, and what the stripping does in terms of the fields a
reader of mail sees.  A field is a line with the continuation lines after it
(`fields`); stripping by names keeps the fields whose name is not among them, and a
field without a name — continuation lines at the top of the block — always:

    stripHeaders  =  the bytes of the fields that `keeps` lets through   (`stripHeaders_eq`)

Replies must not show the mailbox.  The rewriter works by a list of names, so what is
left to check is the fields it does not name:

    the address is in the reply  ⟺  it is in a field that is kept
                                              (`rewriteForReply_hides_iff`)
-/
import Mathlib
import Weiterleitung.Lib.Lines
import Weiterleitung.Lib.Utf8
import Weiterleitung.Domain.EmailAddress

namespace Weiterleitung

open Text Utf8 Lines Unicode

/-! ## The source -/

/-- Headers dropped from every message we relay. -/
def strippedHeaders : List Str :=
  ["from", "sender", "reply-to", "return-path", "dkim-signature", "domainkey-signature",
    "arc-authentication-results", "arc-message-signature", "arc-seal",
    "authentication-results", "received-spf", "x-weiterleitung-alias"]

/-- CR LF. -/
def crlf : Bytes := [13, 10]

/-- Where `needle`, which is not empty, first occurs. -/
def findSubsequence (needle : Bytes) : Bytes → Option Nat
  | [] => none
  | b :: rest =>
      if needle.isPrefixOf (b :: rest) then some 0
        else (findSubsequence needle rest).map (· + 1)

/-- Splits a raw message into its header block and the body that follows the first empty
line.  Handles both CRLF and bare LF line endings. -/
def splitHeadersBody (raw : Bytes) : Bytes × Bytes :=
  match findSubsequence [13, 10, 13, 10] raw with
  | some index => (raw.take (index + 2), raw.drop (index + 4))
  | none =>
      match findSubsequence [10, 10] raw with
      | some index => (raw.take (index + 1), raw.drop (index + 2))
      | none => (raw, [])

def isContinuation (line : Str) : Bool := line.head? = some ' ' || line.head? = some '\t'

/-- The name a line is stripped by; a line without a colon has the empty one. -/
def headerName (line : Str) : Str :=
  match splitOnce ':' line with
  | some (name, _) => toLowercase (trim name)
  | none => []

/-- The lines the loop of `strip_headers` keeps. -/
def stripLines (names : List Str) : Bool → List Str → List Str
  | _, [] => []
  | dropping, line :: lines =>
      let dropping := if isContinuation line then dropping
        else names.contains (headerName line)
      if dropping then stripLines names dropping lines
      else line :: stripLines names dropping lines

/-- Returns the header block with every field in `names` removed,
continuation lines included. -/
def stripHeaders (headers : Bytes) (names : List Str) : Bytes :=
  encode (stripLines names false (splitInclusive '\n' (fromUtf8Lossy headers))).flatten

/-- The loop of `header_value`. -/
def headerValueLines (name : Str) : Option Str → List Str → Option Str
  | value, [] => value
  | value, line :: lines =>
      if isContinuation line then
        match value with
        | some v => headerValueLines name (some (v ++ ' ' :: trim line)) lines
        | none => headerValueLines name none lines
      else
        match value with
        | some v => some v
        | none =>
            match splitOnce ':' line with
            | some (candidate, rest) =>
                if eqIgnoreAsciiCase (trim candidate) name then
                  headerValueLines name (some (trim rest)) lines
                else headerValueLines name none lines
            | none => headerValueLines name none lines

/-- Reads the (unfolded) value of a header, if present. -/
def headerValue (headers : Bytes) (name : Str) : Option Str :=
  headerValueLines name none (splitInclusive '\n' (fromUtf8Lossy headers))

/-- `str::replace` of one character. -/
def replace (c : Char) (new : Str) (s : Str) : Str :=
  s.flatMap fun d => if d = c then new else [d]

/-- Formats `Display Name <address>`, quoting the display name when needed. -/
def quotedAddress (display address : Str) : Str :=
  let needsQuoting :=
    display.any fun c => c ∈ ['<', '>', '(', ')', ',', ':', ';', '@', '"', '.']
  let escaped := replace '"' "\\\"" (replace '\\' "\\\\" display)
  if needsQuoting then '"' :: escaped ++ "\" <" ++ address ++ ">"
  else escaped ++ " <" ++ address ++ ">"

structure ForwardRewrite where
  /-- Address the message was sent to. -/
  aliasAddress : Str
  /-- Reverse alias the mailbox replies to in order to reach the sender. -/
  reverseAlias : Str
  /-- Display name of the original sender, if any. -/
  senderName : Option Str
  /-- Original envelope/header sender. -/
  senderEmail : Str

/-- What `From` shows of the original sender. -/
def ForwardRewrite.display (params : ForwardRewrite) : Str :=
  match params.senderName with
  | some name =>
      if (trim name).isEmpty then params.senderEmail
      else trim name ++ " - " ++ params.senderEmail
  | none => params.senderEmail

def ForwardRewrite.injected (params : ForwardRewrite) : Str :=
  "From: " ++ quotedAddress params.display params.reverseAlias ++ "\r\nReply-To: " ++
    params.reverseAlias ++ "\r\nX-Weiterleitung-Alias: " ++ params.aliasAddress ++
    "\r\nX-Weiterleitung-Sender: " ++ params.senderEmail ++ "\r\n"

/-- Rewrites a message from a contact so it can be delivered to the mailbox. -/
def rewriteForForward (raw : Bytes) (params : ForwardRewrite) : Bytes :=
  let (headers, body) := splitHeadersBody raw
  let kept := stripHeaders headers strippedHeaders
  encode params.injected ++ kept ++ crlf ++ body

structure ReplyRewrite where
  /-- Alias the reply goes out as. -/
  aliasAddress : Str
  /-- Real address of the contact. -/
  contactEmail : Str

def ReplyRewrite.injected (params : ReplyRewrite) : Str :=
  "From: " ++ params.aliasAddress ++ "\r\nTo: " ++ params.contactEmail ++
    "\r\nX-Weiterleitung-Alias: " ++ params.aliasAddress ++ "\r\n"

/-- The names stripped from a reply. -/
def replyStripped : List Str :=
  strippedHeaders ++ ["to".toList, "cc".toList, "bcc".toList, "x-weiterleitung-sender".toList]

/-- Rewrites a reply sent by the mailbox to a reverse alias so the contact
only ever sees the alias. -/
def rewriteForReply (raw : Bytes) (params : ReplyRewrite) : Bytes :=
  let (headers, body) := splitHeadersBody raw
  let kept := stripHeaders headers replyStripped
  encode params.injected ++ kept ++ crlf ++ body

/-! ## Fields -/

/-- The fields of a header block: each line with the continuation lines after it. -/
def fields : List Str → List (List Str)
  | [] => []
  | line :: lines =>
      match fields lines with
      | (next :: more) :: rest =>
          if isContinuation next then (line :: next :: more) :: rest
          else [line] :: (next :: more) :: rest
      | rest => [line] :: rest

/-- Is the line dropped, if the one before it was `dropping`? -/
def drops (names : List Str) (dropping : Bool) (line : Str) : Bool :=
  if isContinuation line then dropping else names.contains (headerName line)

/-- Is a field kept when `names` are stripped?  One that starts with a
continuation line has no name. -/
def keeps (names : List Str) (field : List Str) : Bool :=
  !field.head?.any (drops names false)

/-- Fields are groups of lines. -/
theorem fields_eq (lines : List Str) : fields lines = groups isContinuation lines := by
  induction lines with
  | nil => rfl
  | cons line lines ih =>
      rw [fields, groups, ih]
      rcases groups isContinuation lines with _ | ⟨_ | ⟨next, more⟩, rest⟩ <;> rfl

/-- The loop takes away groups of lines. -/
theorem stripLines_eq_strip (names : List Str) (lines : List Str) : ∀ dropping,
    stripLines names dropping lines
      = strip isContinuation (fun line => names.contains (headerName line))
        dropping lines := by
  induction lines with
  | nil => exact fun _ => rfl
  | cons line lines ih =>
      intro dropping
      simp only [stripLines, strip, ih]

/-- Stripping keeps exactly the fields that `keeps` lets through, in their order. -/
theorem stripLines_eq (names : List Str) (lines : List Str) :
    stripLines names false lines = ((fields lines).filter (keeps names)).flatten := by
  rw [stripLines_eq_strip, strip_eq, fields_eq]
  congr 2
  funext field
  cases field with
  | nil => rfl
  | cons line more =>
      show (!(!isContinuation line && names.contains (headerName line)))
        = !drops names false line
      unfold drops
      cases isContinuation line <;> rfl

/-- The fields of a raw header block. -/
def headerFields (headers : Bytes) : List (List Str) :=
  fields (splitInclusive '\n' (fromUtf8Lossy headers))

theorem stripHeaders_eq (headers : Bytes) (names : List Str) :
    stripHeaders headers names =
      encode ((headerFields headers).filter (keeps names)).flatten.flatten := by
  rw [stripHeaders, stripLines_eq, headerFields]

/-! ## What a reply shows -/

/-- Every field but the last ends in a line feed. -/
theorem pairwise_headerFields (headers : Bytes) :
    (headerFields headers).Pairwise fun field _ => [10] <:+ encode field.flatten := by
  have hlines := pairwise_splitInclusive '\n' (fromUtf8Lossy headers)
  rw [← flatten_groups isContinuation (splitInclusive _ _), List.pairwise_flatten] at hlines
  unfold headerFields
  rw [fields_eq]
  refine hlines.2.imp_of_mem ?_
  intro field next hfield hnext hclosed
  obtain ⟨y, hy⟩ := List.exists_mem_of_ne_nil _ (groups_ne_nil _ hnext)
  obtain ⟨init, x, rfl⟩ := (List.eq_nil_or_concat' field).resolve_left (groups_ne_nil _ hfield)
  obtain ⟨l, hl⟩ := hclosed x (by simp) y hy
  refine ⟨encode (init.flatten ++ l), ?_⟩
  rw [List.flatten_append, List.flatten_singleton, ← hl, ← List.append_assoc,
    encode_append _ ['\n'], encode_singleton_ascii (by decide)]
  rfl

section
variable (a : EmailAddress)

theorem not_mem_encode_normalised {c : Char} (hc : c.toNat < 128)
    (hw : isWhitespace c = true) :
    UInt8.ofNat c.toNat ∉ encode a.normalised := by
  intro h
  have hplain := (a.mem_normalised (mem_encode_ascii hc h)).1
  rw [hw] at hplain
  cases hplain

theorem at_mem_encode_normalised : 64 ∈ encode a.normalised := by
  refine List.mem_flatMap.mpr ⟨'@', a.at_mem_normalised, ?_⟩
  decide

/-- Text without an at sign does not show an address. -/
theorem not_infix_of_no_at {text : Bytes} (h : 64 ∉ text) : ¬ encode a.normalised <:+: text :=
  fun hi => h (hi.subset (at_mem_encode_normalised a))

/-- A header line written by the rewriter shows an address iff its value does. -/
theorem infix_headerLine {name value : Str} {rest : Bytes} (hname : '@' ∉ name) :
    encode a.normalised <:+: encode (name ++ ": ".toList ++ value ++ "\r\n".toList) ++ rest ↔
      encode a.normalised <:+: encode value ∨ encode a.normalised <:+: rest := by
  have hcr : (13 : UInt8) ∉ encode a.normalised :=
    not_mem_encode_normalised a (c := '\r') (by decide) (by decide)
  have hlf : (10 : UInt8) ∉ encode a.normalised :=
    not_mem_encode_normalised a (c := '\n') (by decide) (by decide)
  have hsp : (32 : UInt8) ∉ encode a.normalised :=
    not_mem_encode_normalised a (c := ' ') (by decide) (by decide)
  have hlabel : ¬ encode a.normalised <:+: encode (name ++ [':']) := by
    refine not_infix_of_no_at a fun h => ?_
    have hm := mem_encode_ascii (c := '@') (by decide) h
    rcases List.mem_append.mp hm with hm | hm
    · exact hname hm
    · exact absurd hm (by decide)
  have hnil : ¬ encode a.normalised <:+: ([] : Bytes) :=
    not_infix_of_no_at a List.not_mem_nil
  have hform : encode (name ++ ": ".toList ++ value ++ "\r\n".toList) ++ rest
      = encode (name ++ [':']) ++ 32 :: (encode value ++ 13 :: ([] ++ 10 :: rest)) := by
    rw [show ": ".toList = [':'] ++ [' '] from rfl, show "\r\n".toList = ['\r'] ++
      ['\n'] from rfl]
    simp only [encode_append, encode_singleton_ascii (c := ' ') (by decide),
      encode_singleton_ascii (c := '\r') (by decide),
      encode_singleton_ascii (c := '\n') (by decide)]
    simp
  rw [hform, infix_append_cons hsp, infix_append_cons hcr, infix_append_cons hlf]
  simp only [hlabel, hnil, false_or]

theorem ReplyRewrite.injected_eq (params : ReplyRewrite) :
    params.injected =
      ("From".toList ++ ": ".toList ++ params.aliasAddress ++ "\r\n".toList) ++
      ("To".toList ++ ": ".toList ++ params.contactEmail ++ "\r\n".toList) ++
      ("X-Weiterleitung-Alias".toList ++ ": ".toList ++ params.aliasAddress ++
        "\r\n".toList) := by
  have h1 : "From: ".toList = "From".toList ++ ": ".toList := by decide
  have h2 : "\r\nTo: ".toList = "\r\n".toList ++ ("To".toList ++ ": ".toList) := by decide
  have h3 : "\r\nX-Weiterleitung-Alias: ".toList
      = "\r\n".toList ++ ("X-Weiterleitung-Alias".toList ++ ": ".toList) := by decide
  unfold ReplyRewrite.injected
  simp only [h1, h2, h3, List.append_assoc]

/-- A mailbox address that is in none of the alias, the contact and the body is in the
reply iff it is in a header field that is kept. -/
theorem rewriteForReply_shows_iff (raw : Bytes) (params : ReplyRewrite)
    (halias : ¬ encode a.normalised <:+: encode params.aliasAddress)
    (hcontact : ¬ encode a.normalised <:+: encode params.contactEmail)
    (hbody : ¬ encode a.normalised <:+: (splitHeadersBody raw).2) :
    encode a.normalised <:+: rewriteForReply raw params ↔
      ∃ field ∈ headerFields (splitHeadersBody raw).1,
        keeps replyStripped field = true ∧ encode a.normalised <:+: encode field.flatten := by
  have hcr : (13 : UInt8) ∉ encode a.normalised :=
    not_mem_encode_normalised a (c := '\r') (by decide) (by decide)
  have hlf : (10 : UInt8) ∉ encode a.normalised :=
    not_mem_encode_normalised a (c := '\n') (by decide) (by decide)
  have hne : encode a.normalised ≠ [] := List.ne_nil_of_mem (at_mem_encode_normalised a)
  have hnil : ¬ encode a.normalised <:+: ([] : Bytes) :=
    not_infix_of_no_at a List.not_mem_nil
  have hform : rewriteForReply raw params =
      encode params.injected ++ (stripHeaders (splitHeadersBody raw).1 replyStripped ++ 13 ::
        ([] ++ 10 :: (splitHeadersBody raw).2)) := by
    simp [rewriteForReply, crlf]
  rw [hform, params.injected_eq, encode_append, encode_append, List.append_assoc,
    List.append_assoc, infix_headerLine a (by decide), infix_headerLine a (by decide),
    infix_headerLine a (by decide),
    infix_append_cons hcr, infix_append_cons hlf]
  simp only [hnil, halias, hcontact, hbody, false_or, or_false]
  -- what is left is the kept block, field by field
  have hkept := (pairwise_headerFields (splitHeadersBody raw).1).sublist
    (List.filter_sublist (p := keeps replyStripped))
  rw [stripHeaders_eq, List.flatten_flatten, encode_flatten, List.map_map]
  rw [show encode ∘ List.flatten = fun field : List Str => encode field.flatten from rfl,
    infix_flatten hlf hne (List.pairwise_map.mpr hkept)]
  simp [and_assoc]

/-- A reply hides the mailbox exactly if every header field that shows it is one of those
the rewriter strips. -/
theorem rewriteForReply_hides_iff (raw : Bytes) (params : ReplyRewrite)
    (halias : ¬ encode a.normalised <:+: encode params.aliasAddress)
    (hcontact : ¬ encode a.normalised <:+: encode params.contactEmail)
    (hbody : ¬ encode a.normalised <:+: (splitHeadersBody raw).2) :
    ¬ encode a.normalised <:+: rewriteForReply raw params ↔
      ∀ field ∈ headerFields (splitHeadersBody raw).1,
        encode a.normalised <:+: encode field.flatten → keeps replyStripped field = false := by
  rw [rewriteForReply_shows_iff a raw params halias hcontact hbody]
  constructor
  · intro h field hfield hshow
    cases hk : keeps replyStripped field with
    | false => rfl
    | true => exact absurd ⟨field, hfield, hk, hshow⟩ h
  · rintro h ⟨field, hfield, hk, hshow⟩
    rw [h field hfield hshow] at hk
    cases hk

end

theorem rewriteForReply_hides_iff_stripped :
    ¬ encode EmailAddress.me.normalised <:+: rewriteForReply
      (encode "From: me@personal.example\r\n\r\nThanks\r\n".toList)
      ⟨"cedar-ripple.4f8a@example.com", "support@shop.example"⟩ :=
  (rewriteForReply_hides_iff EmailAddress.me _ _ (by decide +kernel) (by decide +kernel)
    (by decide +kernel)).mpr (by decide +kernel)

/-- A field the rewriter has no name for takes the mailbox address to the contact. -/
theorem rewriteForReply_shows_mailbox :
    ¬ ∀ (a : EmailAddress) (raw : Bytes) (params : ReplyRewrite),
      ¬ encode a.normalised <:+: encode params.aliasAddress →
      ¬ encode a.normalised <:+: encode params.contactEmail →
      ¬ encode a.normalised <:+: (splitHeadersBody raw).2 →
      ¬ encode a.normalised <:+: rewriteForReply raw params := by
  intro h
  exact h EmailAddress.me
    (encode "Resent-From: me@personal.example\r\n\r\nThanks\r\n".toList)
    ⟨"cedar-ripple.4f8a@example.com", "support@shop.example"⟩
    (by decide +kernel) (by decide +kernel) (by decide +kernel) (by decide +kernel)

end Weiterleitung
