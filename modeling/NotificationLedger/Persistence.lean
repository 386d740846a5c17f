import NotificationLedger.Idempotency

/-!
# The writes of a history

A row of the intents does not say which render it was written with: neither the renderer nor the
plaintext stands in it. The history does. `Write.In` finds the step that committed a render, and
every stored intent has one (`exists_write_of_history`); what that step inserted is there for good
(`Write.In.kept`).
-/

namespace NotificationLedger

open Outcome Public

/-- A render as it is persisted: for which request, at what time, under which nonces, and on which
ledger. -/
structure Write where
  request : IntentRequest
  rendered : RenderedTemplate
  now : DateTime
  nonces : Nonces
  before : Ledger

namespace Write

variable (S : Setting) (w : Write)

/-- What the request and the render have become. -/
def intent : IntentPersistence := persistenceOf S.externals w.request w.rendered

/-- The id of the written intent. -/
def intentId : String :=
  intentIdOf S.externals w.request.source.moduleId w.request.idempotencyKey
    (w.request.digest S.externals)

/-- A step of the history to `s` commits the write. -/
structure In (ls : List (Command × Reply)) (s : System) : Prop where
  committed : ∃ pre n receipt post t t',
    ls = pre ++ (.advance n (.nonces w.nonces), .created w.request (.ok receipt.response)) :: post ∧
    (system S).History pre t ∧ t.ledger = w.before ∧
    t.calls[n]? = some (.create w.request w.now (.writing (w.intent S))) ∧
    (system S).Step t
      (.advance n (.nonces w.nonces), .created w.request (.ok receipt.response)) t' ∧
    writeIntent S.externals S.protector w.before (w.intent S) w.nonces w.now =
      .ok (t'.ledger, receipt) ∧
    (system S).Run t' post s

/-- What a write leaves in every later ledger: the rows of the intent and of its snapshot, under
the encryptions of the render, and the releases it has found or made. -/
structure Kept (e : Encrypted) (L₁ L : Ledger) : Prop where
  origin : Origin S w.request w.rendered w.now
  digest : messageDigest S.externals (w.intent S) = w.rendered.contentDigest
  encrypted : e.By S.protector (w.intent S) w.nonces
  intents : intentRow S.externals (w.intent S) e.recipient w.now ∈ L.intents.rows
  snapshots : snapshotRow S.externals (w.intent S) e.subject e.text e.html
    (messageDigest S.externals (w.intent S)) w.now ∈ L.renderSnapshots.rows
  release : ensureTemplateRelease S.externals w.before (w.intent S) w.now = .ok L₁
  releases : L₁.templateReleases.rows <+: L.templateReleases.rows
  provenance : Provenance S w.before

variable {S w} {ls ms : List (Command × Reply)} {s s' : System}

theorem In.append (h : w.In S ls s) (hrun : (system S).Run s ms s') : w.In S (ls ++ ms) s' := by
  obtain ⟨pre, n, receipt, post, t, t', rfl, hpre, hbefore, hc, hstep, hwrite, hpost⟩ := h.committed
  exact ⟨pre, n, receipt, post ++ ms, t, t', by simp, hpre, hbefore, hc, hstep, hwrite,
    hpost.append hrun⟩

/-- **A write is kept.** -/
theorem In.kept (h : w.In S ls s) : ∃ e L₁, w.Kept S e L₁ s.ledger := by
  obtain ⟨pre, n, receipt, post, t, t', rfl, hpre, hbefore, hc, hstep, hwrite, hpost⟩ := h.committed
  have hreach : (system S).Reachable t := ⟨pre, hpre⟩
  have hext := extends_of_systemRun (hreach.step hstep) hpost
  obtain ⟨-, hprepared⟩ := remembered_of_reachable hreach (List.mem_of_getElem? hc)
  obtain ⟨rendered, horigin, hsame⟩ := hprepared _ rfl
  have hrendered : w.rendered = rendered := congrArg IntentPersistence.rendered hsame
  obtain ⟨hdigest, -⟩ := writeIntent_eq_ok.mp hwrite
  obtain ⟨e, he, hwrote, -⟩ := wrote_of_writeIntent hwrite
  obtain ⟨L₁, hensured, hreleases⟩ := hwrote.release
  exact ⟨e, L₁, hrendered ▸ horigin, hdigest, he,
    hext.intents.subset ((Table.mem_insert? hwrote.intents).mpr (Or.inr rfl)),
    hext.renderSnapshots.subset ((Table.mem_insert? hwrote.snapshots).mpr (Or.inr rfl)), hensured,
    hreleases ▸ hext.templateReleases, hbefore ▸ provenance_of_reachable hreach⟩

/-- The release a write refers to: it is stored, under the template, version, locale and digest of
the render, and under its renderer unless another one has stored it before. -/
theorem Kept.exists_release {e : Encrypted} {L₁ L : Ledger} (h : w.Kept S e L₁ L) :
    ∃ t ∈ L.templateReleases.rows, t.id = templateReleaseIdOf S.externals (w.intent S) ∧
      IsRelease (w.intent S) t ∧ t.templateDigest = w.rendered.templateDigest ∧
      (t.rendererIdentity = w.rendered.rendererIdentity ↔
        ∀ u ∈ w.before.templateReleases.rows, IsRelease (w.intent S) u →
          u.rendererIdentity = w.rendered.rendererIdentity) := by
  obtain ⟨-, ⟨t, ht, hrelease, hdigest, hsame⟩ | ⟨hnone, hins⟩⟩ :=
    ensureTemplateRelease_eq_ok.mp h.release
  · refine ⟨t, h.releases.subset (hsame ▸ ht), h.provenance.id_of_isRelease ht hrelease, hrelease,
      hdigest, ?_⟩
    constructor
    · intro hrenderer u hu hother
      have hone : u = t := Table.eq_of_clash hu ht (Or.inr ⟨hother.1.trans hrelease.1.symm,
        hother.2.1.trans hrelease.2.1.symm, hother.2.2.trans hrelease.2.2.symm⟩)
      rw [hone, hrenderer]
    · exact fun hall ↦ hall t ht hrelease
  · obtain ⟨-, T, hT, hL₁⟩ := Ledger.insertTemplateRelease_eq_some.mp hins
    have hmem : releaseRow S.externals (w.intent S) w.now ∈ L₁.templateReleases.rows := by
      rw [hL₁]
      exact (Table.mem_insert? hT).mpr (Or.inr rfl)
    refine ⟨_, h.releases.subset hmem, rfl, ⟨rfl, rfl, rfl⟩, rfl, ?_⟩
    exact ⟨fun _ u hu hother ↦ absurd hother (hnone u hu), fun _ ↦ rfl⟩

end Write

section Writes

variable {S : Setting} {ls : List (Command × Reply)} {s s' : System}

/-- A step that adds an intent commits a write. -/
theorem write_of_step {l : Command × Reply} (hls : (system S).History ls s)
    (hstep : (system S).Step s l s') :
    s'.ledger.intents = s.ledger.intents ∨
      ∃ w : Write, w.In S (ls ++ [l]) s' ∧ ∃ i, i.id = w.intentId S ∧
        s'.ledger.intents.rows = s.ledger.intents.rows ++ [i] := by
  obtain ⟨command, reply⟩ := l
  have hreach : (system S).Reachable s := ⟨ls, hls⟩
  cases admits_of_step hreach hstep with
  | none hintents => exact Or.inl hintents
  | @one n nonces request now intent response i hc hcalls hrows =>
    have hmem := List.mem_of_getElem? hc
    obtain ⟨rendered, -, rfl⟩ := (remembered_of_reachable hreach hmem).prepared intent rfl
    cases System.stepped_of_exec hstep with
    | advanced hc' hadvance =>
      cases hc.symm.trans hc'
      cases hadvance with
      | written h =>
        obtain ⟨e, -, hwrote, -⟩ := wrote_of_writeIntent h
        refine Or.inr ⟨⟨request, rendered, now, nonces, s.ledger⟩, ⟨ls, n, _, [], s, _, rfl, hls,
          rfl, hc, hstep, h, .nil⟩, _, rfl, (Table.insert?_eq_some.mp hwrote.intents).2⟩

/-- **Every stored intent was committed by a write of the history.** -/
theorem exists_write_of_history (h : (system S).History ls s) :
    ∀ i ∈ s.ledger.intents.rows, ∃ w : Write, w.In S ls s ∧ i.id = w.intentId S := by
  refine Lts.History.invariant (S := system S)
    (I := fun ls s ↦ ∀ i ∈ s.ledger.intents.rows,
      ∃ w : Write, w.In S ls s ∧ i.id = w.intentId S) ?_ ?_ h
  · rintro s rfl i hi
    exact absurd hi List.not_mem_nil
  · intro ls s l s' hls ih hstep i hi
    have hold : i ∈ s.ledger.intents.rows →
        ∃ w : Write, w.In S (ls ++ [l]) s' ∧ i.id = w.intentId S := by
      intro hi
      obtain ⟨w, hw, hid⟩ := ih i hi
      exact ⟨w, hw.append (Lts.Run.single hstep), hid⟩
    rcases write_of_step hls hstep with hsame | ⟨w, hw, j, hid, hrows⟩
    · rw [hsame] at hi
      exact hold hi
    · rw [hrows, List.mem_append, List.mem_singleton] at hi
      rcases hi with hi | rfl
      · exact hold hi
      · exact ⟨w, hw, hid⟩

end Writes

end NotificationLedger
