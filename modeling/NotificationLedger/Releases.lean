import NotificationLedger.Creation
import NotificationLedger.Persistence

/-!
# Template releases

A snapshot refers to the stored release of its template, version and locale. The release is inserted
when it is new, and otherwise only its digest is compared with that of the render: its renderer
identity is not. So the release names the renderer of the first render, whoever made the later ones.

## What the digest misses

The digest covers the template and not who rendered it. A write whose template is stored under
another digest is refused; one with the same digest is taken, whatever renderer it names. So the
stored row is exact for the first write under its key, and for every later one exact but for the
renderer.
-/

namespace NotificationLedger

open Outcome Public

variable {S : Setting} {ls : List (Command × Reply)} {s s' : System}

/-- The release is the render's: template, version, locale, renderer and digest. -/
structure ReleasedAs (rendered : RenderedTemplate) (t : TemplateRelease) : Prop where
  templateId : t.templateId = rendered.templateId
  version : t.version = rendered.templateVersion
  locale : t.locale = rendered.resolvedLocale
  rendererIdentity : t.rendererIdentity = rendered.rendererIdentity
  templateDigest : t.templateDigest = rendered.templateDigest

/-- The snapshot of the written intent refers to a release that is the render's. -/
def Provenanced (S : Setting) (L : Ledger) (w : Write) : Prop :=
  ∃ i snapshot t, L.intents.get? (w.intentId S) = some i ∧
    L.renderSnapshots.get? i.snapshotId = some snapshot ∧
    L.templateReleases.get? snapshot.templateReleaseId = some t ∧ ReleasedAs w.rendered t

/-- No other renderer has a release under the render's template, version and locale. -/
def SameRenderer (S : Setting) (L : Ledger) (w : Write) : Prop :=
  ∀ t ∈ L.templateReleases.rows, IsRelease (w.intent S) t →
    t.rendererIdentity = w.rendered.rendererIdentity

/-- **A write refers to a release of its own renderer** exactly when no other one stood there. -/
theorem Write.Kept.provenanced_iff {w : Write} {e : Encrypted} {L₁ L : Ledger}
    (h : w.Kept S e L₁ L) : Provenanced S L w ↔ SameRenderer S w.before w := by
  obtain ⟨t, ht, hid, ⟨htemplate, hversion, hlocale⟩, hdigest, hrenderer⟩ := h.exists_release
  have hintent : L.intents.get? (w.intentId S) =
      some (intentRow S.externals (w.intent S) e.recipient w.now) :=
    Table.get?_eq_some.mpr ⟨h.intents, rfl⟩
  have hsnapshot : L.renderSnapshots.get? (snapshotIdOf S.externals (w.intent S).requestDigest) =
      some (snapshotRow S.externals (w.intent S) e.subject e.text e.html
        (messageDigest S.externals (w.intent S)) w.now) :=
    Table.get?_eq_some.mpr ⟨h.snapshots, rfl⟩
  have hrelease : L.templateReleases.get? (templateReleaseIdOf S.externals (w.intent S)) =
      some t := Table.get?_eq_some.mpr ⟨ht, hid⟩
  rw [SameRenderer, ← hrenderer]
  constructor
  · rintro ⟨i, snapshot, u, hi, hs, hu, hreleased⟩
    cases hintent.symm.trans hi
    cases hsnapshot.symm.trans hs
    cases hrelease.symm.trans hu
    exact hreleased.rendererIdentity
  · exact fun hsame ↦ ⟨_, _, t, hintent, hsnapshot, hrelease, htemplate, hversion, hlocale, hsame,
      hdigest⟩

/-- A render whose digest is not that of the stored release is refused. -/
theorem refused_of_digest {n : ℕ} {nonces : Nonces} {request : IntentRequest} {now : DateTime}
    {intent : IntentPersistence} {reply : Reply} {t : TemplateRelease}
    (hc : s.calls[n]? = some (.create request now (.writing intent)))
    (ht : t ∈ s.ledger.templateReleases.rows) (hrelease : IsRelease intent t)
    (hdigest : t.templateDigest ≠ intent.templateDigest)
    (hstep : (system S).Step s (.advance n (.nonces nonces), reply) s') :
    s'.ledger = s.ledger ∧ ∃ e, reply = .created request (.error e) := by
  cases System.stepped_of_exec hstep with
  | advanced hc' hadvance =>
    cases hc.symm.trans hc'
    cases hadvance with
    | writeFailed h => exact ⟨rfl, _, rfl⟩
    | written h =>
      obtain ⟨-, L₁, e, L₂, L₃, hensured, -⟩ := writeIntent_eq_ok.mp h
      obtain ⟨-, ⟨u, hu, hother, hsame, -⟩ | ⟨hnone, -⟩⟩ := ensureTemplateRelease_eq_ok.mp hensured
      · have hone : t = u := Table.eq_of_clash ht hu (Or.inr ⟨hrelease.1.trans hother.1.symm,
          hrelease.2.1.trans hother.2.1.symm, hrelease.2.2.trans hother.2.2.symm⟩)
        exact absurd (hone ▸ hsame) hdigest
      · exact absurd hrelease (hnone t ht)

/-- What the stored releases say of the renders. -/
structure ReleaseProvenance (S : Setting) (ls : List (Command × Reply)) (s : System) : Prop where
  /-- Every intent was written by a create call of the history. -/
  written : ∀ i ∈ s.ledger.intents.rows, ∃ w : Write, w.In S ls s ∧ i.id = w.intentId S
  /-- Its snapshot refers to the release of its render unless another renderer had stored one. -/
  exact_iff : ∀ w : Write, w.In S ls s → (Provenanced S s.ledger w ↔ SameRenderer S w.before w)
  unchanged : ∀ t ∈ s.ledger.templateReleases.rows, ∀ ms s', (system S).Run s ms s' →
    s'.ledger.templateReleases.get? t.id = some t
  /-- A render with another digest than the stored release is refused, whoever rendered it. -/
  refused : ∀ n request now rendered, s.calls[n]? =
      some (.create request now (.writing (persistenceOf S.externals request rendered))) →
    ∀ t ∈ s.ledger.templateReleases.rows,
      IsRelease (persistenceOf S.externals request rendered) t →
      t.templateDigest ≠ rendered.templateDigest → ∀ nonces reply s',
        (system S).Step s (.advance n (.nonces nonces), reply) s' →
          s'.ledger = s.ledger ∧ ∃ e, reply = .created request (.error e)

/-- **Snapshot provenance** is exact but for the renderer. -/
theorem releaseProvenance_of_history (h : (system S).History ls s) :
    ReleaseProvenance S ls s := by
  have hreach : (system S).Reachable s := ⟨ls, h⟩
  refine ⟨exists_write_of_history h, ?_, ?_, ?_⟩
  · intro w hw
    obtain ⟨e, L₁, hkept⟩ := hw.kept
    exact hkept.provenanced_iff
  · intro t ht ms s' hrun
    exact Table.get?_of_mem ((extends_of_systemRun hreach hrun).templateReleases.subset ht)
  · intro n request now rendered hc t ht hrelease hdiffers nonces reply s' hstep
    exact refused_of_digest hc ht hrelease hdiffers hstep

theorem releaseProvenance_queued :
    ∃ ls, (system Deployment.setting).History ls Deployment.queued ∧
      ReleaseProvenance Deployment.setting ls Deployment.queued := by
  obtain ⟨ls, hls⟩ := Deployment.reachable_queued
  exact ⟨ls, hls, releaseProvenance_of_history hls⟩

/-! ## A second renderer -/

namespace Deployment

/-- The same render by another renderer. -/
def renderedElsewhere : RenderedTemplate := { rendered with rendererIdentity := "r2" }

/-- A second invitation, up to its write. -/
def secondCreation : List Command :=
  [.create (some "org") (requestTo "bo@c.de") midnight, .advance 1 .proceed,
    .advance 1 (.rendered (.ok renderedElsewhere)), .advance 1 .proceed, .advance 1 .proceed]

def writesElsewhere : Call → Bool
  | .create _ _ (.writing intent) => decide (intent.rendered = renderedElsewhere)
  | _ => false

def isCreated : Reply → Bool
  | .created _ (.ok _) => true
  | _ => false

theorem secondCreation_runs :
    ((queued.execAll setting secondCreation).any fun p ↦ p.1.calls[1]?.any writesElsewhere &&
      (p.1.exec setting (.advance 1 (.nonces nonces))).any fun q ↦ isCreated q.2) = true := by
  decide +kernel

end Deployment

/-- The second render is written under the release of the first renderer. -/
theorem not_provenanced_renderedElsewhere :
    ∃ ls s w, (system Deployment.setting).History ls s ∧ w.In Deployment.setting ls s ∧
      w.rendered = Deployment.renderedElsewhere ∧ ¬Provenanced Deployment.setting s.ledger w := by
  obtain ⟨p, hp, htest⟩ := (Option.any_eq_true _ _).mp Deployment.secondCreation_runs
  rw [Bool.and_eq_true] at htest
  obtain ⟨c, hc, hwrites⟩ := (Option.any_eq_true _ _).mp htest.1
  obtain ⟨⟨t, reply⟩, hexec, hcreated⟩ := (Option.any_eq_true _ _).mp htest.2
  obtain ⟨ls, hls⟩ := Deployment.reachable_queued
  have hhistory := hls.append (run_of_execAll hp)
  have hreach : (system Deployment.setting).Reachable p.1 := ⟨_, hhistory⟩
  have hstep : (system Deployment.setting).Step p.1
      (.advance 1 (.nonces Deployment.nonces), reply) t := hexec
  -- the write is that of the second call
  have hwrite : ∃ w : Write, w.In Deployment.setting
      (ls ++ Deployment.secondCreation.zip p.2 ++
        [(.advance 1 (.nonces Deployment.nonces), reply)]) t ∧ w.before = p.1.ledger ∧
        w.rendered = Deployment.renderedElsewhere := by
    cases System.stepped_of_exec hstep with
    | advanced hc' hadvance =>
      cases hc.symm.trans hc'
      cases hadvance with
      | writeFailed => cases hcreated
      | @written request now intent _ _ receipt h =>
        obtain ⟨rendered, -, rfl⟩ :=
          (remembered_of_reachable hreach (List.mem_of_getElem? hc)).prepared intent rfl
        exact ⟨⟨request, rendered, now, Deployment.nonces, p.1.ledger⟩,
          ⟨_, 1, receipt, [], p.1, _, rfl, hhistory, rfl, hc, hstep, h, .nil⟩, rfl,
          of_decide_eq_true hwrites⟩
  obtain ⟨w, hw, hbefore, hrendered⟩ := hwrite
  refine ⟨_, t, w, hhistory.snoc hstep, hw, hrendered, fun hprovenanced ↦ ?_⟩
  obtain ⟨e, L₁, hkept⟩ := hw.kept
  have hext := extends_of_systemRun Deployment.reachable_queued (run_of_execAll hp)
  have hfirst : Deployment.templateRelease ∈ w.before.templateReleases.rows := by
    rw [hbefore]
    exact hext.templateReleases.subset (List.mem_singleton_self _)
  have hrelease : IsRelease (w.intent Deployment.setting) Deployment.templateRelease := by
    have hfields : (w.intent Deployment.setting).templateId = w.rendered.templateId ∧
        (w.intent Deployment.setting).templateVersion = w.rendered.templateVersion ∧
        (w.intent Deployment.setting).templateLocale = w.rendered.resolvedLocale :=
      ⟨rfl, rfl, rfl⟩
    rw [hrendered] at hfields
    exact ⟨hfields.1.symm, hfields.2.1.symm, hfields.2.2.symm⟩
  have hsame := hkept.provenanced_iff.mp hprovenanced _ hfirst hrelease
  rw [hrendered] at hsame
  exact absurd hsame (by decide)

end NotificationLedger
