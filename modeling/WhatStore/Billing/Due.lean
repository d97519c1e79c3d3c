import WhatStore.Billing.Notices

/-!
# Notices that are due

What a sweep reads of the subscriptions includes every open one that is due a notice.
Whatever runs at the same time, when the sweep has returned it has come to each of
them: it has queued the notice, or released its claim after a failure, or found a row
that another sweep had claimed or a renewal had moved.
-/

namespace WhatStore.Billing

open ReadCommitted ReadCommitted.Prog

variable {id : Id} {notice : ExpiryNotice}

/-! ## What is due -/

theorem expiresAt_le_of_lapsed {c : Current} {time expiresAt : Time} (h : isLapsed c time = true)
    (hexpires : c.subscription.expiresAt = some expiresAt) : expiresAt ≤ time := by
  simp only [isLapsed, Bool.and_eq_true, Option.any_eq_true, decide_eq_true_eq] at h
  obtain ⟨-, graceEnd, hgrace, hle⟩ := h
  obtain ⟨t, ht, rfl⟩ := Option.map_eq_some_iff.1 hgrace
  rw [hexpires] at ht
  cases ht
  exact (Nat.le_add_right _ _).trans hle

theorem within_week {expiresAt time day : Time}
    (h : expiresAt - time ≤ day ∨ expiresAt - time ≤ 7 * day) : expiresAt ≤ time + 7 * day := by
  simp only [Time] at *
  omega

theorem ends_of_due {c : Current} {time : Time} (h : dueExpiryNotice c time = some notice) :
    isPaidPlan c.plan = true ∧
      ∃ expiresAt, c.subscription.expiresAt = some expiresAt ∧ expiresAt ≤ time + 7 * dayMs := by
  rw [dueExpiryNotice] at h
  split at h
  · cases h
  next hpaid =>
  split at h
  · cases h
  next expiresAt hexpires =>
  have hpaid : isPaidPlan c.plan = true := by simpa using hpaid
  refine ⟨hpaid, expiresAt, hexpires, ?_⟩
  split at h
  · next hlapsed => exact (expiresAt_le_of_lapsed hlapsed hexpires).trans (Nat.le_add_right _ _)
  split at h
  · next hended => exact hended.trans (Nat.le_add_right _ _)
  split at h
  · cases h
  split at h
  · next hday => exact within_week (.inl hday)
  split at h
  · next hweek => exact within_week (.inr hweek)
  · cases h

theorem mem_candidates_of_due {db : Database} {sub : Subscription} {time : Time}
    (hrow : db.row (.subscription id) = some sub) (hopen : sub.isOpen = true)
    (hdue : dueExpiryNotice ⟨id, sub, findPlan db sub.planId⟩ time = some notice) :
    ⟨id, sub, findPlan db sub.planId⟩ ∈ Query.eval (.candidates (time + 7 * dayMs)) db := by
  obtain ⟨hpaid, expiresAt, hexpires, hle⟩ := ends_of_due hdue
  refine List.mem_filterMap.2 ⟨.subscription id, db.mem_keys_of_row hrow,
    Option.map_eq_some_iff.2 ⟨sub, Option.filter_eq_some_iff.2 ⟨hrow, ?_⟩, rfl⟩⟩
  refine Bool.and_eq_true_iff.2 ⟨Bool.and_eq_true_iff.2 ⟨hopen, hpaid⟩, ?_⟩
  have hexpires : sub.expiresAt = some expiresAt := hexpires
  rw [hexpires]
  exact decide_eq_true hle

/-! ## A sweep along its history -/

/-- What a sweep has done about a notice that was due: its claim has missed, or the
notice was queued, or the claim was released. -/
inductive Answered (h : List Ev) (c : Current) (notice : ExpiryNotice) : Prop
  | missed (hclaim : .update (.claimNotice c.id c.subscription.expiresAt notice) false ∈ h)
  | queued (hqueued : .call (.enqueueNotice c.id notice) true ∈ h)
  | released (found : Option Current) (hfound : .query (.subscription c.id) found ∈ h)
      (hwritten : ∀ current, found = some current → ∃ hit, .update (.setNotices c.id
        (current.subscription.expiryNoticesSent.filter fun n => n != notice)) hit ∈ h)

theorem Answered.mono {h h' : List Ev} {c : Current} (hanswered : Answered h c notice)
    (hsub : h ⊆ h') : Answered h' c notice := by
  cases hanswered with
  | missed hclaim => exact .missed (hsub hclaim)
  | queued hqueued => exact .queued (hsub hqueued)
  | released found hfound hwritten =>
      refine .released found (hsub hfound) fun current hcurrent => ?_
      obtain ⟨hit, hmem⟩ := hwritten current hcurrent
      exact ⟨hit, hsub hmem⟩

/-- A sweep that returns has read the clock and then the rows of a week, and has
answered whatever was due of them. -/
def SweepLaw (r : Request) (h : List Ev) : Ev → Prop
  | .returned _ => r = .lifecycle → ∃ later time, ∃ l : List Current,
      h = later ++ [.query (.candidates (time + 7 * dayMs)) l, .call .now time] ∧
        ∀ c ∈ l, ∀ notice, dueExpiryNotice c time = some notice → Answered h c notice
  | _ => True

/-- What throws leaves a history, rolled back, that satisfies `Q`. -/
def CatchLaw (Q : List Ev → Prop) (h : List Ev) : Ev → Prop
  | .threw _ => Q (.rolledBack :: h)
  | _ => True

theorem sweepLaw_of_inside {r : Request} {h : List Ev} {e : Ev} (he : ∀ tx, e ≠ .returned tx) :
    SweepLaw r h e := by
  cases e with
  | returned tx => exact absurd rfl (he tx)
  | _ => trivial

/-- A `try` block, under a law that forbids neither events nor rollbacks. -/
theorem attempt_caught {P : List Ev → Ev → Prop} {p : Prog billing Unit} {h : List Ev}
    {Q : Option Unit → List Ev → Prop}
    (hP : ∀ h e, (∀ tx, e ≠ .returned tx) → (∀ err, e ≠ .threw err) → P h e)
    (hp : p.Along (CatchLaw (Q none)) h fun a h' => Q (some a) h') : p.attempt.Along P h Q := by
  refine along_attempt (hp.weaken_inside fun h e he hcatch => ?_)
  cases e with
  | threw err => exact ⟨hP _ _ (fun _ h => by cases h) (fun _ h => by cases h), hcatch⟩
  | returned tx => exact absurd rfl (he tx)
  | _ => exact hP _ _ he fun _ h => by cases h

theorem catchLaw_of_inside {Q : List Ev → Prop} {h : List Ev} {e : Ev}
    (he : ∀ err, e ≠ .threw err) : CatchLaw Q h e := by
  cases e with
  | threw err => exact absurd rfl (he err)
  | _ => trivial

theorem catchLaw_of_forall {Q : List Ev → Prop} {h : List Ev} {e : Ev} (hQ : Q (.rolledBack :: h)) :
    CatchLaw Q h e := by
  cases e with
  | threw err => exact hQ
  | _ => trivial

theorem releaseNotice_along {c : Current} {h : List Ev} {Q : List Ev → Prop}
    (hQ : ∀ h', h <:+ h' → Answered h' c notice → Q (.rolledBack :: h')) :
    (releaseNotice c.id notice).Along (CatchLaw Q) h fun _ h' =>
      h <:+ h' ∧ Answered h' c notice := by
  refine along_ask (fun _ => trivial) fun s => ?_
  generalize billing.eval (.subscription c.id) s = found
  cases found with
  | none => exact ⟨List.suffix_cons _ _, .released none List.mem_cons_self fun _ h => by cases h⟩
  | some current =>
      refine along_seq.2 (along_seq.2 fun hit => ⟨trivial, ?_⟩)
      have hwritten : ∀ {h' : List Ev}, .update (.setNotices c.id
          (current.subscription.expiryNoticesSent.filter fun n => n != notice)) hit ∈ h' →
          .query (.subscription c.id) (some current) ∈ h' → Answered h' c notice :=
        fun hmem hfound => .released (some current) hfound fun _ h => by
          cases h
          exact ⟨hit, hmem⟩
      refine along_throwIf.2 ⟨fun _ => ?_, fun _ => ⟨trivial, ?_, ?_⟩⟩
      · exact hQ _ ((List.suffix_cons _ _).trans (List.suffix_cons _ _))
          (hwritten (by simp) (by simp))
      · exact (List.suffix_cons _ _).trans ((List.suffix_cons _ _).trans (List.suffix_cons _ _))
      · exact hwritten (by simp) (by simp)

/-- The sweep has gone on from the history, and has answered what is due of the row. -/
def Attended (c : Current) (time : Time) (h h' : List Ev) : Prop :=
  h <:+ h' ∧ ∀ notice, dueExpiryNotice c time = some notice → Answered h' c notice

theorem handleCandidate_attends {c : Current} {time : Time} {h : List Ev} :
    (handleCandidate c time).Along (CatchLaw (Attended c time h)) h fun _ h' =>
      Attended c time h h' := by
  unfold handleCandidate
  split
  · next hnone =>
      refine ⟨List.suffix_rfl, fun notice hdue => ?_⟩
      rw [hnone] at hdue
      cases hdue
  next notice hdue =>
  have hattended : ∀ {h'}, h <:+ h' → Answered h' c notice → Attended c time h h' := by
    intro h' hsuffix hanswered
    refine ⟨hsuffix, fun notice' hdue' => ?_⟩
    cases hdue.symm.trans hdue'
    exact hanswered
  intro claimed
  have hclaimed := (List.suffix_cons (.update (S := billing)
    (.claimNotice c.id c.subscription.expiresAt notice) claimed) h)
  refine ⟨trivial, trivial, along_runIf.2 ⟨fun _ => ?_, fun hmissed => ?_⟩⟩
  swap
  · subst hmissed
    exact hattended (hclaimed.trans (List.suffix_cons _ _)) (.missed (by simp))
  have hstart := hclaimed.trans (List.suffix_cons (.committed (openTx
    (.update (S := billing) (.claimNotice c.id c.subscription.expiresAt notice) claimed :: h))) _)
  -- whatever throws inside is caught, and the claim is released
  refine along_seq.2 ((attempt_caught (Q := fun acted h' => h <:+ h' ∧
    (acted = some () → .call (.enqueueNotice c.id notice) true ∈ h'))
    (fun _ _ _ he => catchLaw_of_inside he) ?_).mono ?_)
  · refine along_seq.2 (((silent_runIf silent_downgrade).along_keeping (I := fun h' => h <:+ h')
      hstart fun h' e _ hI _ => ?_).mono fun _ h' hI => ?_)
    · exact ⟨catchLaw_of_forall ⟨hI.trans (List.suffix_cons _ _), fun h => by cases h⟩,
        hI.trans (List.suffix_cons _ _)⟩
    · refine along_invoke (fun _ => trivial) fun queued =>
        along_throwIf.2 ⟨fun _ => ?_, fun hqueued => ?_⟩
      · exact ⟨(hI.trans (List.suffix_cons _ _)).trans (List.suffix_cons _ _), fun h => by cases h⟩
      · refine ⟨hI.trans (List.suffix_cons _ _), fun _ => ?_⟩
        have hqueued : queued = true := by simpa using hqueued
        rw [hqueued]
        exact List.mem_cons_self
  · rintro acted h' ⟨hsuffix, hqueued⟩
    refine along_runIf.2 ⟨fun _ => ?_, fun hsome => ?_⟩
    · refine along_seq.2 ((releaseNotice_along fun h'' hlater hanswered => ?_).mono ?_)
      · exact hattended ((hsuffix.trans hlater).trans (List.suffix_cons _ _))
          (hanswered.mono (List.subset_cons_self _ _))
      · rintro - h'' ⟨hlater, hanswered⟩
        exact hattended ((hsuffix.trans hlater).trans (List.suffix_cons _ _))
          (hanswered.mono (List.subset_cons_self _ _))
    · cases acted with
      | none => cases hsome
      | some done => exact hattended hsuffix (.queued (hqueued rfl))

theorem run_sweeps : run.Follows (SweepLaw .lifecycle) := by
  refine along_invoke (fun _ => trivial) fun time => along_ask (fun _ => trivial) fun s => ?_
  generalize billing.eval (.candidates (time + 7 * dayMs)) s = l
  refine (along_each (I := fun rest h =>
    (∃ later, h = later ++ [.query (.candidates (time + 7 * dayMs)) l, .call .now time]) ∧
      ∀ c ∈ l, c ∈ rest ∨ ∀ notice, dueExpiryNotice c time = some notice → Answered h c notice)
    ⟨⟨[], rfl⟩, fun c hc => .inl hc⟩ ?_).mono ?_
  · rintro c rest h ⟨⟨later, hlater⟩, hrest⟩
    refine along_seq.2 ((attempt_caught (Q := fun _ => Attended c time h)
      (fun _ _ he _ => sweepLaw_of_inside he) handleCandidate_attends).mono ?_)
    rintro - h' ⟨⟨new, hnew⟩, hanswered⟩
    refine ⟨⟨new ++ later, by rw [← hnew, hlater, List.append_assoc]⟩, fun c' hc' => ?_⟩
    rcases hrest c' hc' with hmem | hdone
    · rcases List.mem_cons.1 hmem with rfl | hmem
      · exact .inr hanswered
      · exact .inl hmem
    · exact .inr fun notice hdue => (hdone notice hdue).mono (hnew ▸ List.subset_append_right _ _)
  · rintro - h ⟨⟨later, hlater⟩, hdone⟩ -
    refine ⟨later, time, l, hlater, fun c hc notice hdue => ?_⟩
    rcases hdone c hc with hmem | hanswered
    · exact absurd hmem List.not_mem_nil
    · exact hanswered notice hdue

theorem sweepLaw_of_other {r : Request} {h : List Ev} {e : Ev} (hr : r ≠ .lifecycle) :
    SweepLaw r h e := by
  cases e with
  | returned tx => exact fun h => absurd h hr
  | _ => trivial

theorem handler_sweeps (r : Request) : (handler r).Follows (SweepLaw r) := by
  by_cases hr : r = .lifecycle
  · subst hr
    exact run_sweeps
  · exact (follows_anything _).weaken fun _ _ _ => sweepLaw_of_other hr

/-! ## Every interleaving -/

/-- The world was there on the way to `w`. -/
def Passed (db : Database) (v w : BillingWorld) : Prop :=
  World.Trace (fun _ _ _ => True) (fun _ _ _ _ => True) (World.initial db) v ∧
    World.Trace (fun _ _ _ => True) (fun _ _ _ _ => True) v w

/-- What became of a notice that was due: the sweep came to a row that had it or had
moved its expiry, or it queued the notice, or it released the claim. -/
inductive Dealt (db : Database) (w : BillingWorld) (i : ℕ) (c : Current) (notice : ExpiryNotice) :
    Prop
  | settled {v : BillingWorld} (hpassed : Passed db v w)
      (hrow : ∀ sub : Subscription, (v.view i).row (.subscription c.id) = some sub →
        sub.expiresAt = c.subscription.expiresAt → notice ∈ sub.expiryNoticesSent)
  | queued (hqueued : .call (.enqueueNotice c.id notice) true ∈ w.own i)
  | released (found : Option Current) (hfound : .query (.subscription c.id) found ∈ w.own i)
      (hwritten : ∀ current, found = some current → ∃ hit, .update (.setNotices c.id
        (current.subscription.expiryNoticesSent.filter fun n => n != notice)) hit ∈ w.own i)

/-- The sweep `i` has dealt with every notice that was due, by its clock, of the rows that
were committed when it read them. -/
def NothingDropped (db : Database) (w : BillingWorld) (i : ℕ) : Prop :=
  ∃ (v : BillingWorld) (time : Time), Passed db v w ∧ .call .now time ∈ v.own i ∧
    ∀ id (sub : Subscription) notice, v.db.row (.subscription id) = some sub → sub.isOpen = true →
      dueExpiryNotice ⟨id, sub, findPlan v.db sub.planId⟩ time = some notice →
        Dealt db w i ⟨id, sub, findPlan v.db sub.planId⟩ notice

theorem passed_of_move {db : Database} {v v' w : BillingWorld} {i : ℕ} {r : Request} {e : Ev}
    (hv : World.Trace SweepLaw (fun _ _ _ _ => True) (World.initial db) v)
    (hm : v.Move SweepLaw (fun _ _ _ _ => True) i r e v')
    (hw : World.Trace SweepLaw (fun _ _ _ _ => True) v' w) : Passed db v w := by
  refine ⟨hv.weaken fun _ _ _ _ => trivial, ?_⟩
  have hmove : v.Move (fun _ _ _ => True) (fun _ _ _ _ => True) i r e v' :=
    ⟨hm.act, trivial, trivial, hm.request, hm.live⟩
  exact .head ⟨i, r, e, hmove⟩ (hw.weaken fun _ _ _ _ => trivial)

theorem dealt_of_answered {db : Database} {w : BillingWorld} {i : ℕ} {c : Current}
    (htrace : World.Trace SweepLaw (fun _ _ _ _ => True) (World.initial db) w)
    (h : Answered (w.own i) c notice) : Dealt db w i c notice := by
  cases h with
  | queued hqueued => exact .queued hqueued
  | released found hfound hwritten => exact .released found hfound hwritten
  | missed hclaim =>
      obtain ⟨r, hlog⟩ := World.mem_own.1 hclaim
      obtain ⟨v, v', hv, hm, hrest⟩ := htrace.exists_move hlog List.not_mem_nil
      have hguard : (Update.claimNotice c.id c.subscription.expiresAt notice).guard
          ((v.view i).row (.subscription c.id)) = false := by
        cases hm.act with
        | miss _ hguard => exact hguard
      refine .settled (passed_of_move hv hm hrest) fun sub hsub hexpires => ?_
      rw [hsub] at hguard
      have hclaims : (sub.expiresAt == c.subscription.expiresAt &&
          !sub.expiryNoticesSent.contains notice) = false := hguard
      simpa [hexpires] using hclaims

/-- **No notice that is due is dropped**: in every interleaving, when a sweep has returned,
it has dealt with whatever was due of the rows it read. -/
theorem due_dealt {db : Database} {s : BillingSystem}
    (hrun : System.Runs handler (fun _ => True) (fun _ _ _ _ => True) (System.initial db) s)
    {i : ℕ} {tx : List Update} (hreturned : ⟨i, .lifecycle, .returned tx⟩ ∈ s.world.log) :
    NothingDropped db s.world i := by
  have htrace := trace_of_runs (P := SweepLaw) (fun r _ => handler_sweeps r) hrun
  obtain ⟨earlier, hown, hlaw, -⟩ := htrace.own_of_final hreturned trivial
  obtain ⟨later, time, l, rfl, hdone⟩ := hlaw rfl
  obtain ⟨v, r, v', hv, hm, hread, hrest⟩ :=
    htrace.exists_own_move i (.returned tx :: later) _ _ hown
  have hclosed : v.tx i = [] := by
    rw [(World.Trace.tidy (World.initial_tidy db) hv).tx_eq i, hread]
    rfl
  have hl := hm.act.query_eq
  rw [World.view_of_tx_nil hclosed] at hl
  refine ⟨v, time, passed_of_move hv hm hrest, by rw [hread]; exact List.mem_singleton_self _, ?_⟩
  intro id sub notice hrow hopen hdue
  have hmem : ⟨id, sub, findPlan v.db sub.planId⟩ ∈ l := hl ▸ mem_candidates_of_due hrow hopen hdue
  refine dealt_of_answered htrace ((hdone _ hmem notice hdue).mono ?_)
  rw [hown]
  exact List.subset_cons_self _ _

/-- The sweep of process `i` has returned. -/
def hasSwept (w : BillingWorld) (i : ℕ) : Bool :=
  w.log.any fun entry => entry.pid == i && match entry.request, entry.event with
    | .lifecycle, .returned _ => true
    | _, _ => false

theorem returned_of_hasSwept {w : BillingWorld} {i : ℕ} (h : hasSwept w i = true) :
    ∃ tx, (⟨i, .lifecycle, .returned tx⟩ : Entry billing Request) ∈ w.log := by
  obtain ⟨⟨j, r, e⟩, hmem, hentry⟩ := List.any_eq_true.1 h
  simp only [Bool.and_eq_true, beq_iff_eq] at hentry
  obtain ⟨rfl, hreturned⟩ := hentry
  split at hreturned
  · next tx => exact ⟨tx, hmem⟩
  · cases hreturned

/-- Of two sweeps that read the same row one queues the notice, and the other finds it in
the row. -/
theorem due_dealt_overlapping : ∃ s : BillingSystem, hasSwept s.world 1 = true ∧
    (s.world.own 1).any (queues 3 .d0) = false ∧ NothingDropped endingStore s.world 1 := by
  obtain ⟨s, hrun, hend⟩ := System.exists_run_of_play handler (fun _ => true)
    (fun _ _ _ _ => true) (System.initial endingStore)
    [.start 0 .lifecycle, .steps 0 2 (drawing 20), .start 1 .lifecycle, .steps 1 2 (drawing 20),
      .steps 0 4 (drawing 20), .steps 1 3 (drawing 20)]
    (fun s => (hasSwept s.world 1, (s.world.own 1).any (queues 3 .d0)))
    (by decide +kernel : _ = some (true, false))
  obtain ⟨hswept, hqueued⟩ := Prod.mk.inj hend
  obtain ⟨tx, hreturned⟩ := returned_of_hasSwept hswept
  exact ⟨s, hswept, hqueued,
    due_dealt (hrun.mono (fun _ _ => trivial) fun _ _ _ _ _ => trivial) hreturned⟩

end WhatStore.Billing
