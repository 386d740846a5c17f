import NotificationLedger.Creation
import NotificationLedger.Persistence
import NotificationLedger.Protection
import NotificationLedger.Workers

/-!
# What is sent is what was rendered

Four envelopes are written by one function and put together again by another, over a join. The ids
the join follows are hashes, but rows that would clash under one id are never both stored, so a
delivery leads back to one write; and what the protector reveals of that write's rows is what it
was given.
-/

namespace NotificationLedger

open Outcome Public

variable {S : Setting} {ls : List (Command × Reply)} {s : System}

/-- The request carries the recipient and the render of this write. -/
structure SentAs (S : Setting) (w : Write) (request : DispatchRequest) : Prop where
  recipient : request.recipient.address = w.request.recipient.address
  message : request.message = {
    templateId := w.request.templateId
    templateVersion := templateVersion
    locale := w.request.recipient.locale
    subject := w.rendered.subject
    text := w.rendered.text
    html := w.rendered.html
    contentDigest :=
      Snapshot.contentDigest S.externals w.rendered.subject w.rendered.text w.rendered.html }
  correlationId : request.correlationId = w.request.correlationId

/-- What the protector reveals of a row's envelopes. -/
theorem revealed_of_requestOf {protector : SnapshotProtector} {row : Runtime.DueRow}
    {claim : DispatchClaim} {request : DispatchRequest}
    (h : Runtime.requestOf protector row claim = .ok request) :
    ∃ address subject text html,
      protector.reveal ⟨row.intent.recipientCiphertext, row.intent.recipientKeyRef⟩ = .ok address ∧
      protector.reveal ⟨row.snapshot.subjectCiphertext, row.snapshot.protectionKeyRef⟩ =
        .ok subject ∧
      protector.reveal ⟨row.snapshot.textCiphertext, row.snapshot.protectionKeyRef⟩ = .ok text ∧
      protector.reveal ⟨row.snapshot.htmlCiphertext, row.snapshot.protectionKeyRef⟩ = .ok html ∧
      request.recipient = { address } ∧
      request.message = {
        templateId := row.template.templateId
        templateVersion := row.template.version
        locale := row.intent.locale
        subject, text, html
        contentDigest := row.snapshot.contentDigest } ∧
      request.correlationId = row.intent.correlationId := by
  simp only [Runtime.requestOf] at h
  obtain ⟨address, haddress, h⟩ := bind_eq_ok.mp h
  obtain ⟨subject, hsubject, h⟩ := bind_eq_ok.mp h
  obtain ⟨text, htext, h⟩ := bind_eq_ok.mp h
  obtain ⟨html, hhtml, h⟩ := bind_eq_ok.mp h
  rw [pure_eq_ok] at h
  subst h
  exact ⟨address, subject, text, html, haddress, hsubject, htext, hhtml, rfl, rfl, rfl⟩

/-- The joined row behind a claimed work. -/
theorem exists_row_of_claimed {t t' : System} {l : Command × Reply} {work : DispatchWork}
    (hreach : (system S).Reachable t) (hstep : (system S).Step t l t')
    (hwork : l.2 = .claimed work) :
    ∃ row, row.delivery ∈ t.ledger.deliveries.rows ∧
      Runtime.join t.ledger row.delivery = some row ∧
      row.delivery.id = work.claim.deliveryId ∧
      Runtime.requestOf S.protector row work.claim = .ok work.request := by
  obtain ⟨command, reply⟩ := l
  simp only at hwork
  subst hwork
  cases System.stepped_of_exec hstep with
  | advanced hc hadvance =>
    cases hadvance with
    | @claimed now row L' _ h =>
      obtain ⟨hget, hdue, hjoin⟩ := System.holds_of_reachable hreach _ _ (List.mem_of_getElem? hc)
      have hclaimable : row.delivery.status.isClaimable = true := by
        rw [Runtime.isDue, Bool.and_eq_true, Bool.and_eq_true] at hdue
        exact hdue.1.1
      obtain ⟨-, -, hrequest, hclaim, -⟩ := (Runtime.claimRow_eq_ok hget hclaimable).mp h
      refine ⟨row, (Table.get?_eq_some.mp hget).1, hjoin, ?_, ?_⟩
      · rw [hclaim]
        rfl
      · rwa [hclaim]

/-- The rows a claim joins are the rows of the write behind its delivery. -/
theorem Write.Kept.joined {w : Write} {e : Encrypted} {L₁ L : Ledger} (h : w.Kept S e L₁ L)
    {d : Delivery} {row : Runtime.DueRow} (hjoin : Runtime.join L d = some row)
    (hintent : d.intentId = w.intentId S) :
    row.intent = intentRow S.externals (w.intent S) e.recipient w.now ∧
      row.snapshot = snapshotRow S.externals (w.intent S) e.subject e.text e.html
        (messageDigest S.externals (w.intent S)) w.now ∧
      IsRelease (w.intent S) row.template := by
  simp only [Runtime.join, bind, Option.bind_eq_some_iff, pure, Option.some_inj] at hjoin
  obtain ⟨i, hi, snapshot, hsnapshot, template, htemplate, rfl⟩ := hjoin
  obtain ⟨himem, hiid⟩ := Table.get?_eq_some.mp hi
  have hirow : i = intentRow S.externals (w.intent S) e.recipient w.now :=
    Table.eq_of_key himem h.intents (hiid.trans hintent)
  obtain ⟨hsmem, hsid⟩ := Table.get?_eq_some.mp hsnapshot
  have hsrow : snapshot = snapshotRow S.externals (w.intent S) e.subject e.text e.html
      (messageDigest S.externals (w.intent S)) w.now := by
    refine Table.eq_of_key hsmem h.snapshots (hsid.trans ?_)
    rw [hirow]
    rfl
  obtain ⟨htmem, htid⟩ := Table.get?_eq_some.mp htemplate
  obtain ⟨t, ht, hid, hrelease, -⟩ := h.exists_release
  have htrow : template = t := by
    refine Table.eq_of_key htmem ht (htid.trans ?_)
    rw [hsrow]
    exact hid.symm
  exact ⟨hirow, hsrow, htrow ▸ hrelease⟩

/-- A request over the rows of a write carries its content. -/
theorem sentAs_of_requestOf {w : Write} {e : Encrypted} {L₁ L : Ledger} (h : w.Kept S e L₁ L)
    (hinverts : ∀ nonce plaintext v, S.protector.protect nonce plaintext = .ok v →
      S.protector.reveal v = .ok plaintext)
    {d : Delivery} {row : Runtime.DueRow} (hjoin : Runtime.join L d = some row)
    (hintent : d.intentId = w.intentId S) {claim : DispatchClaim} {request : DispatchRequest}
    (hrequest : Runtime.requestOf S.protector row claim = .ok request) : SentAs S w request := by
  obtain ⟨hirow, hsrow, htemplate, hversion, -⟩ := h.joined hjoin hintent
  obtain ⟨address, subject, text, html, haddress, hsubject, htext, hhtml, hrecipient, hmessage,
    hcorrelation⟩ := revealed_of_requestOf hrequest
  obtain ⟨hkey, hkey'⟩ := h.encrypted.key
  obtain ⟨⟨hrendered, hrenderedVersion, -⟩, -⟩ :=
    validateRenderedTemplate_eq_ok.mp h.origin.rendered
  rw [hirow] at haddress
  rw [hsrow] at hsubject htext hhtml
  -- one key reference stands for the three envelopes of the snapshot
  have htextKey : e.text = ⟨e.text.ciphertext, e.subject.keyReference⟩ := by rw [hkey]
  have hhtmlKey : e.html = ⟨e.html.ciphertext, e.subject.keyReference⟩ := by rw [hkey, hkey']
  have hrecipientIs := (hinverts _ _ _ h.encrypted.recipient).symm.trans haddress
  have hsubjectIs := (hinverts _ _ _ h.encrypted.subject).symm.trans hsubject
  have htextIs := hinverts _ _ _ h.encrypted.text
  rw [htextKey] at htextIs
  have htextIs := htextIs.symm.trans htext
  have hhtmlIs := hinverts _ _ _ h.encrypted.html
  rw [hhtmlKey] at hhtmlIs
  have hhtmlIs := hhtmlIs.symm.trans hhtml
  cases hrecipientIs
  cases hsubjectIs
  cases htextIs
  cases hhtmlIs
  refine ⟨?_, ?_, ?_⟩
  · rw [hrecipient]
    rfl
  · rw [hmessage, htemplate, hversion, hirow, hsrow]
    change DispatchRequestMessage.mk w.rendered.templateId w.rendered.templateVersion _ _ _ _ _ = _
    rw [hrendered, hrenderedVersion]
    rfl
  · rw [hcorrelation, hirow]
    rfl

/-- Every delivery goes back to a write of the history. -/
theorem exists_write_of_delivery (h : (system S).History ls s) {d : Delivery}
    (hd : d ∈ s.ledger.deliveries.rows) : ∃ w : Write, w.In S ls s ∧ d.intentId = w.intentId S := by
  have hchecked := checked_of_reachable (reachable_ledger ⟨ls, h⟩)
  obtain ⟨-, i, hi, hid⟩ := hchecked.deliveries d hd
  obtain ⟨w, hw, hwid⟩ := exists_write_of_history h i hi
  exact ⟨w, hw, hid.symm.trans hwid⟩

/-- What a claim of the history has handed out is what the write of its delivery has persisted. -/
theorem sentAs_of_claimed
    (hinverts : ∀ nonce plaintext v, S.protector.protect nonce plaintext = .ok v →
      S.protector.reveal v = .ok plaintext)
    (h : (system S).History ls s) {l : Command × Reply} (hl : l ∈ ls) {work : DispatchWork}
    (hwork : l.2 = .claimed work) :
    ∃ d ∈ s.ledger.deliveries.rows, d.id = work.claim.deliveryId ∧
      ∀ w : Write, w.In S ls s → d.intentId = w.intentId S → SentAs S w work.request := by
  obtain ⟨pre, post, rfl⟩ := List.append_of_mem hl
  obtain ⟨t, t', hpre, hstep, hpost⟩ := h.of_append_cons
  have hreach : (system S).Reachable t := ⟨pre, hpre⟩
  obtain ⟨row, hrow, hjoin, hid, hrequest⟩ := exists_row_of_claimed hreach hstep hwork
  -- the joined rows of the claim are still stored, so they are those the write has left
  have hext : t.ledger.Extends s.ledger :=
    (extends_of_step hreach hstep).trans (extends_of_systemRun (hreach.step hstep) hpost)
  obtain ⟨d, hd, hident⟩ := hext.exists_delivery hrow
  simp only [Delivery.identity, Prod.mk.injEq] at hident
  refine ⟨d, hd, hident.1.trans hid, fun w hw hintent ↦ ?_⟩
  obtain ⟨e, L₁, hkept⟩ := hw.kept
  exact sentAs_of_requestOf hkept hinverts (hext.join hjoin) (hident.2.1.symm.trans hintent)
    hrequest

/-- **What is sent is what was rendered.** Every delivery leads back to a write, and every request
that is ever claimed for the delivery carries the recipient and the render of that write. -/
theorem sent_as_rendered {C : Cryptography} {p : AeadSnapshotProtector} (hC : C.Inverts)
    (hprotector : S.protector = p.protector C) (h : (system S).History ls s) :
    (∀ d ∈ s.ledger.deliveries.rows, ∃ w : Write, w.In S ls s ∧ d.intentId = w.intentId S) ∧
    (∀ l ∈ ls, ∀ work, l.2 = .claimed work →
      ∃ d ∈ s.ledger.deliveries.rows, d.id = work.claim.deliveryId ∧
        ∀ w : Write, w.In S ls s → d.intentId = w.intentId S → SentAs S w work.request) ∧
    ∀ l ∈ ls, ∀ work, l.2 = .claimed work → ∀ l' ∈ ls, ∀ work', l'.2 = .claimed work' →
      work.claim.deliveryId = work'.claim.deliveryId →
        work.request.recipient = work'.request.recipient ∧
          work.request.message = work'.request.message := by
  have hinverts : ∀ nonce plaintext v, S.protector.protect nonce plaintext = .ok v →
      S.protector.reveal v = .ok plaintext := by
    rw [hprotector]
    exact fun _ _ _ hprotect ↦ AeadSnapshotProtector.reveal_protect hC hprotect
  refine ⟨fun d hd ↦ exists_write_of_delivery h hd,
    fun l hl work hwork ↦ sentAs_of_claimed hinverts h hl hwork, ?_⟩
  intro l hl work hwork l' hl' work' hwork' hsame
  obtain ⟨d, hd, hid, hall⟩ := sentAs_of_claimed hinverts h hl hwork
  obtain ⟨d', hd', hid', hall'⟩ := sentAs_of_claimed hinverts h hl' hwork'
  have hone : d = d' := Table.eq_of_key hd hd' (hid.trans (hsame.trans hid'.symm))
  subst hone
  obtain ⟨w, hw, hintent⟩ := exists_write_of_delivery h hd
  have hfirst := hall w hw hintent
  have hsecond := hall' w hw hintent
  have haddress := hfirst.recipient.trans hsecond.recipient.symm
  exact ⟨congrArg DispatchRequestRecipient.mk haddress,
    hfirst.message.trans hsecond.message.symm⟩

/-! ## A deployment with the production protector -/

namespace Deployment

set_option maxRecDepth 20000 in
/-- The digits of the alphabet are read back, and padding is none of them. -/
theorem base64Digits : ∀ m < 64, base64Alphabet.getD m '=' ≠ '=' ∧
    base64Alphabet.idxOf? (base64Alphabet.getD m '=') = some m := by decide

theorem idxOf?_base64Digit (n : ℕ) : base64Alphabet.idxOf? (base64Digit n) = some (n % 64) :=
  (base64Digits (n % 64) (Nat.mod_lt n (by decide))).2

theorem base64Digit_ne (n : ℕ) : base64Digit n ≠ '=' :=
  (base64Digits (n % 64) (Nat.mod_lt n (by decide))).1

/-- The bytes of a text of six-bit digits. -/
def bytesOf : List ℕ → List UInt8
  | a :: b :: c :: d :: rest =>
    let n := ((a * 64 + b) * 64 + c) * 64 + d
    UInt8.ofNat (n / 65536) :: UInt8.ofNat (n / 256 % 256) :: UInt8.ofNat (n % 256) :: bytesOf rest
  | [a, b, c] =>
    let n := (a * 64 + b) * 64 + c
    [UInt8.ofNat (n / 1024), UInt8.ofNat (n / 4 % 256)]
  | [a, b] => [UInt8.ofNat ((a * 64 + b) / 16)]
  | _ => []

/-- `STANDARD.decode` of what `base64Encode` writes: the digits before the padding. -/
def decodeDigits (text : List Char) : Option (List UInt8) :=
  ((text.takeWhile fun c ↦ c != '=').mapM base64Alphabet.idxOf?).map bytesOf

theorem takeWhile_base64Digit (n : ℕ) (text : List Char) :
    (base64Digit n :: text).takeWhile (fun c ↦ c != '=') =
      base64Digit n :: text.takeWhile fun c ↦ c != '=' :=
  List.takeWhile_cons_of_pos (bne_iff_ne.mpr (base64Digit_ne n))

theorem decodeDigits_base64Encode (bytes : List UInt8) :
    decodeDigits (base64Encode bytes) = some bytes := by
  fun_induction base64Encode bytes with
  | case1 a b c rest n ih =>
    have ha := a.toNat_lt
    have hb := b.toNat_lt
    have hc := c.toNat_lt
    have hn : n = (a.toNat * 256 + b.toNat) * 256 + c.toNat := rfl
    have hcode : ((n / 262144 % 64 * 64 + n / 4096 % 64) * 64 + n / 64 % 64) * 64 + n % 64 = n := by
      omega
    have hfirst : n / 65536 = a.toNat := by omega
    have hsecond : n / 256 % 256 = b.toNat := by omega
    have hthird : n % 256 = c.toNat := by omega
    rw [decodeDigits, Option.map_eq_some_iff] at ih ⊢
    obtain ⟨digits, hdigits, hbytes⟩ := ih
    refine ⟨n / 262144 % 64 :: n / 4096 % 64 :: n / 64 % 64 :: n % 64 :: digits, ?_, ?_⟩
    · simp only [takeWhile_base64Digit, List.mapM_cons, idxOf?_base64Digit, hdigits, bind,
        Option.bind_some, pure]
    · simp only [bytesOf, hcode, hfirst, hsecond, hthird, hbytes, UInt8.ofNat_toNat]
  | case2 a b n =>
    have ha := a.toNat_lt
    have hb := b.toNat_lt
    have hn : n = (a.toNat * 256 + b.toNat) * 4 := rfl
    have hcode : (n / 4096 % 64 * 64 + n / 64 % 64) * 64 + n % 64 = n := by omega
    have hfirst : n / 1024 = a.toNat := by omega
    have hsecond : n / 4 % 256 = b.toNat := by omega
    have hpad : ∀ text : List Char, ('=' :: text).takeWhile (fun c ↦ c != '=') = [] :=
      fun _ ↦ List.takeWhile_cons_of_neg (by decide)
    simp only [decodeDigits, takeWhile_base64Digit, hpad, List.mapM_cons, List.mapM_nil,
      idxOf?_base64Digit, bind, Option.bind_some, pure, Option.map_some, bytesOf, hcode, hfirst,
      hsecond, UInt8.ofNat_toNat]
  | case3 a n =>
    have ha := a.toNat_lt
    have hn : n = a.toNat * 16 := rfl
    have hcode : n / 64 % 64 * 64 + n % 64 = n := by omega
    have hfirst : n / 16 = a.toNat := by omega
    have hpad : ∀ text : List Char, ('=' :: text).takeWhile (fun c ↦ c != '=') = [] :=
      fun _ ↦ List.takeWhile_cons_of_neg (by decide)
    simp only [decodeDigits, takeWhile_base64Digit, hpad, List.mapM_cons, List.mapM_nil,
      idxOf?_base64Digit, bind, Option.bind_some, pure, Option.map_some, bytesOf, hcode, hfirst,
      UInt8.ofNat_toNat]
  | case4 => rfl

/-- A cipher that leaves the text as it is and appends a tag, with base64. -/
def tagging : Cryptography where
  encrypt _ _ plaintext := some (plaintext ++ List.replicate 16 0)
  decrypt _ _ ciphertext := some (ciphertext.take (ciphertext.length - 16))
  encode bytes := String.ofList (base64Encode bytes)
  decode text := decodeDigits text.toList

theorem tagging_inverts : tagging.Inverts where
  decrypt_encrypt := by
    rintro key nonce plaintext _ ⟨⟩
    have hlength : (plaintext ++ List.replicate 16 (0 : UInt8)).length - 16 = plaintext.length := by
      rw [List.length_append, List.length_replicate, Nat.add_sub_cancel]
    simp only [tagging, hlength, List.take_left]
  length_encrypt := by
    rintro key nonce plaintext _ ⟨⟩
    rw [List.length_append, List.length_replicate]
  decode_encode bytes := by
    simp only [tagging, String.toList_ofList, decodeDigits_base64Encode]

def aeadProtector : AeadSnapshotProtector where
  key := ⟨List.replicate 32 0, rfl⟩
  keyReference := "snapshot-key"

/-- The deployment under the production protector. -/
def aeadSetting : Setting := { setting with protector := aeadProtector.protector tagging }

def aeadNonces : Nonces :=
  ⟨List.replicate 12 1, List.replicate 12 2, List.replicate 12 3, List.replicate 12 4⟩

/-- The run to the first attempt, under this protector. -/
def aeadToAwaiting : List Command :=
  creation ++ [.advance 0 .proceed, .advance 0 .proceed, .advance 0 (.nonces aeadNonces)] ++
    handOver

/-- What the claims of a history have handed out. -/
def worksOf (ls : List (Command × Reply)) : List DispatchWork :=
  ls.filterMap fun
    | (_, .claimed work) => some work
    | _ => none

theorem mem_worksOf {ls : List (Command × Reply)} {work : DispatchWork} (h : work ∈ worksOf ls) :
    ∃ l ∈ ls, l.2 = .claimed work := by
  obtain ⟨⟨command, reply⟩, hl, hwork⟩ := List.mem_filterMap.mp h
  refine ⟨_, hl, ?_⟩
  cases reply <;> simp_all

/-- Two attempts of one delivery are handed out. -/
def handsOutTwice (ls : List (Command × Reply)) : Bool :=
  match worksOf ls with
  | [first, second] =>
    decide (first.claim.deliveryId = second.claim.deliveryId ∧
      first.claim.attemptId ≠ second.claim.attemptId)
  | _ => false

theorem handsOutTwice_aead :
    ((System.empty.execAll aeadSetting (aeadToAwaiting ++ retry)).any fun p ↦
      handsOutTwice ((aeadToAwaiting ++ retry).zip p.2)) = true := by
  decide +kernel

theorem exists_history_aead :
    ∃ ls s first second, (system aeadSetting).History ls s ∧ first ∈ worksOf ls ∧
      second ∈ worksOf ls ∧ first.claim.deliveryId = second.claim.deliveryId ∧
      first.claim.attemptId ≠ second.claim.attemptId := by
  obtain ⟨ls, s, h, -, htwice⟩ := exists_labels_of_execAll (aeadToAwaiting ++ retry)
    (fun ls _ ↦ handsOutTwice ls) (Lts.History.nil rfl) handsOutTwice_aead
  rw [handsOutTwice] at htwice
  split at htwice
  next first second heq =>
    obtain ⟨hdelivery, hattempt⟩ := of_decide_eq_true htwice
    exact ⟨ls, s, first, second, h, by simp [heq], by simp [heq], hdelivery, hattempt⟩
  next => exact absurd htwice (by decide)

end Deployment

/-- Under the production protector the invitation is stored, refused by the provider once and sent
again: both requests carry the render of the one write. -/
theorem sent_as_rendered_aead :
    ∃ ls s, ∃ first second : DispatchWork, ∃ w : Write,
      (system Deployment.aeadSetting).History ls s ∧
      (∃ l ∈ ls, l.2 = .claimed first) ∧ (∃ l ∈ ls, l.2 = .claimed second) ∧
      first.claim.attemptId ≠ second.claim.attemptId ∧
      w.In Deployment.aeadSetting ls s ∧
      SentAs Deployment.aeadSetting w first.request ∧
      SentAs Deployment.aeadSetting w second.request ∧
      first.request.recipient = second.request.recipient ∧
      first.request.message = second.request.message := by
  obtain ⟨ls, s, first, second, h, hfirst, hsecond, hdelivery, hattempt⟩ :=
    Deployment.exists_history_aead
  obtain ⟨l, hl, hclaimed⟩ := Deployment.mem_worksOf hfirst
  obtain ⟨l', hl', hclaimed'⟩ := Deployment.mem_worksOf hsecond
  obtain ⟨hwritten, hsent, hsame⟩ := sent_as_rendered Deployment.tagging_inverts rfl h
  obtain ⟨d, hd, hid, hall⟩ := hsent l hl first hclaimed
  obtain ⟨d', hd', hid', hall'⟩ := hsent l' hl' second hclaimed'
  have hone : d = d' := Table.eq_of_key hd hd' (hid.trans (hdelivery.trans hid'.symm))
  subst hone
  obtain ⟨w, hw, hintent⟩ := hwritten d hd
  obtain ⟨hrecipient, hmessage⟩ := hsame l hl first hclaimed l' hl' second hclaimed' hdelivery
  exact ⟨ls, s, first, second, w, h, ⟨l, hl, hclaimed⟩, ⟨l', hl', hclaimed'⟩, hattempt, hw,
    hall w hw hintent, hall' w hw hintent, hrecipient, hmessage⟩

end NotificationLedger
