import WhatStore.Accounts.Endings
import WhatStore.ReadCommitted.Schedule

/-!
# Reset links

A link opens an account once. A reset voids the other links of its account, and
those stay shut, as long as no link is issued while a reset goes through them and
none is open in a transaction when the reset lists them.
-/

namespace WhatStore.Accounts

open ReadCommitted ReadCommitted.Prog

/-- Reset `i` succeeded with the link. -/
def ResetBy (w : AccountWorld) (i : ℕ) (realm : Realm) (raw : Id) : Prop :=
  ∃ r tx, ⟨i, r, .returned tx⟩ ∈ w.log ∧ r.resets = some (realm, raw)

/-- The link has been issued for the account: it is stored, or written by a
transaction that is still open. -/
def IssuedLink (w : AccountWorld) (realm : Realm) (accountId raw : Id) : Prop :=
  ∃ j id link, (w.view j).row (.link realm id) = some link ∧ link.accountId = accountId ∧
    link.tokenHash = hashRandom raw

/-- In the last step `b` succeeded in resetting the account. -/
def JustReset (w : AccountWorld) (realm : Realm) (accountId : Id) : Prop :=
  ∃ b r tx log raw scope link, w.log = ⟨b, r, .returned tx⟩ :: log ∧ r.resets = some (realm, raw) ∧
    .query (.resetToken realm scope (hashRandom raw)) (some link) ∈ w.own b ∧
      link.2.accountId = accountId

/-- What reset links promise between a state and a later one. -/
structure LinksHold (s t : AccountSystem) : Prop where
  once : ∀ i j realm raw, ResetBy t.world i realm raw → ResetBy t.world j realm raw → i = j
  void : ∀ realm accountId raw i, JustReset s.world realm accountId →
    IssuedLink s.world realm accountId raw → s.proc i = .idle → ¬ ResetBy t.world i realm raw

/-! ## When it holds -/

def Query.listsLinks : Query → Option (Realm × Id)
  | .linksOf realm accountId => some (realm, accountId)
  | _ => none

def Update.issues : Update → Option (Realm × Id)
  | .insertLink realm _ row => some (realm, row.accountId)
  | _ => none

def listsLinks : Ev → Option (Realm × Id)
  | .query q _ => q.listsLinks
  | _ => none

def ended : List Ev → Bool
  | .returned _ :: _ => true
  | .threw _ :: _ => true
  | _ => false

/-- A reset of the account has listed its links and has not ended. -/
def voiding (w : AccountWorld) (account : Realm × Id) : Bool :=
  w.log.any fun entry => entry.request.resets.isSome &&
    decide (listsLinks entry.event = some account) && !ended (w.own entry.pid)

/-- Another transaction has issued a link for the account and is still open. -/
def issuing (w : AccountWorld) (i : ℕ) (account : Realm × Id) : Bool :=
  w.log.any fun entry => entry.pid != i &&
    (w.tx entry.pid).any fun u => decide (u.issues = some account)

/-- A link is issued only while no reset of its account goes through the links, and a
reset lists the links only while no other transaction is issuing one. -/
def linkOrder (db : Database) (w : AccountWorld) (i : ℕ) (r : Request) (e : Ev) : Bool :=
  freshRandom db w e && match e with
    | .query q _ => r.resets.isNone || q.listsLinks.all fun account => !issuing w i account
    | .update u _ => u.issues.all fun account => !voiding w account
    | _ => true

abbrev LinkOrder (db : Database) (w : AccountWorld) (i : ℕ) (r : Request) (e : Ev) : Prop :=
  linkOrder db w i r e = true

/-! ## The links of an account -/

def linkOf (realm : Realm) (accountId : Id) : (k : Key) → Row k → Prop
  | .link realm' _, l => realm' = realm ∧ l.accountId = accountId
  | _, _ => False

def usedLink : (k : Key) → Row k → Prop
  | .link _ _, l => l.usedAt.isSome = true
  | _, _ => False

/-- The links of an account, of which the used ones are retired. -/
def linkSweep (realm : Realm) (accountId : Id) : tokenDiscipline.Sweep where
  member := linkOf realm accountId
  retired := usedLink
  stays k x v hmember hrel := by
    cases k with
    | link realm' id =>
        obtain ⟨y, rfl, hsame⟩ := hrel x rfl
        exact ⟨y, rfl, hmember.1, hsame.accountId.trans hmember.2⟩
    | _ => exact hmember.elim
  was k x y hrel hmember := by
    cases k with
    | link realm' id =>
        obtain ⟨y', hy, hsame⟩ := hrel x rfl
        cases hy
        exact ⟨hmember.1, hsame.accountId.symm.trans hmember.2⟩
    | _ => exact hmember
  keeps k x y hrel hretired := by
    cases k with
    | link realm' id =>
        obtain ⟨y', hy, hsame⟩ := hrel x rfl
        cases hy
        exact hsame.used hretired
    | _ => exact hretired

variable {realm : Realm} {accountId : Id} {db : Database} {w : AccountWorld} {i b : ℕ} {r : Request}

theorem lists_linksOf (ids : List Id) :
    (linkSweep realm accountId).Lists (.linksOf realm accountId) ids (ids.map (Key.link realm)) := by
  have hmem : ∀ (s : Database) id, id ∈ Query.eval (.linksOf realm accountId) s ↔
      ∃ l, s.row (.link realm id) = some l ∧ l.accountId = accountId ∧ l.usedAt = none := by
    intro s id
    constructor
    · intro hid
      obtain ⟨⟨id', l⟩, hfound, rfl⟩ := List.mem_map.1 hid
      obtain ⟨hrow, hp⟩ := mem_linksWhere.1 hfound
      simp only [Bool.and_eq_true, beq_iff_eq, Option.isNone_iff_eq_none] at hp
      exact ⟨l, hrow, hp⟩
    · rintro ⟨l, hrow, hp⟩
      refine List.mem_map.2 ⟨(id, l), mem_linksWhere.2 ⟨hrow, ?_⟩, rfl⟩
      simpa using hp
  constructor
  · rintro s rfl k x hrow hmember
    cases k with
    | link realm' id =>
        obtain ⟨rfl, haccount⟩ := hmember
        cases hused : x.usedAt with
        | some time => exact .inl (by simp [linkSweep, usedLink, hused])
        | none => exact .inr (List.mem_map_of_mem ((hmem s id).2 ⟨x, hrow, haccount, hused⟩))
    | _ => exact hmember.elim
  · rintro s rfl k hk
    obtain ⟨id, hid, rfl⟩ := List.mem_map.1 hk
    obtain ⟨l, hrow, haccount, -⟩ := (hmem s id).1 hid
    exact ⟨l, hrow, rfl, haccount⟩

theorem retires_useLink {id : Id} {time : Time} :
    (linkSweep realm accountId).Retires (.useLink realm id time) := by
  constructor
  · intro v x hx
    obtain ⟨l, -, rfl⟩ := Option.map_eq_some_iff.1 hx
    rfl
  · intro l hguard
    change Option.isNone (PasswordResetToken.usedAt l) = false at hguard
    exact Option.isNone_eq_false_iff.1 hguard

theorem swept_links {ids : List Id} {time : Time} {h : List Ev}
    (hwent : WentThrough (.linksOf realm accountId) ids ids (fun id => .useLink realm id time) h) :
    (linkSweep realm accountId).Swept (.linksOf realm accountId) ids (ids.map (Key.link realm)) h := by
  intro k hk
  obtain ⟨id, hid, rfl⟩ := List.mem_map.1 hk
  obtain ⟨hit, late, early, heq, hlisted⟩ := hwent.each id hid
  exact ⟨_, hit, late, early, heq, rfl, hlisted, retires_useLink⟩

/-! ## Each link opens once -/

theorem linkNames_kept (hdb : DistinctHashes (.link realm) db) :
    (tokenNames (.link realm)).Kept TokenLaw (LinkOrder db) db :=
  tokenNames_kept (fun _ _ _ hlaw => hlaw.draws)
    (fun _ _ _ _ hallow => (Bool.and_eq_true_iff.1 hallow).1) hdb

theorem bears_link {s : Database} {id : Id} {l : PasswordResetToken} {raw : Id}
    (hrow : s.row (.link realm id) = some l) (hhash : l.tokenHash = hashRandom raw) :
    (tokenNames (.link realm)).Bears s (.link realm id) raw := by
  refine ⟨l, hrow, ?_⟩
  simp [tokenNames, storedAs, rawIn, hhash, ofToken_hashRandom]

theorem owns_of_found (hdb : DistinctHashes (.link realm) db)
    (htrace : World.Trace TokenLaw (LinkOrder db) (World.initial db) w) {scope : Option Id} {raw : Id}
    {link : Id × PasswordResetToken}
    (hfound : .query (.resetToken realm scope (hashRandom raw)) (some link) ∈ w.own i) :
    (tokenNames (.link realm)).Owns db w.log (.link realm link.1) raw := by
  obtain ⟨later, earlier, hown⟩ := List.append_of_mem hfound
  obtain ⟨v, r, v', hv, hm, -, hrest⟩ := htrace.exists_own_move i later _ earlier hown
  obtain ⟨hrow, hhash, -⟩ := row_of_resetToken hm.act.query_eq
  obtain ⟨x, hx, hmark⟩ := bears_link hrow hhash
  have howns := ((linkNames_kept hdb).named hv).rows.view i _ x raw hx hmark
  refine howns.mono (.trans ?_ hrest.log_suffix)
  rw [hm.act.log_eq]
  exact List.suffix_cons _ _

def Used (v : Option PasswordResetToken) : Prop := ∃ l, v = some l ∧ l.usedAt.isSome = true

theorem Used.moved {v v' : Option PasswordResetToken} (hused : Used v)
    (hrel : Persists SameLink v v') : Used v' := by
  obtain ⟨l, rfl, hl⟩ := hused
  obtain ⟨l', rfl, hsame⟩ := hrel l rfl
  exact ⟨l', rfl, hsame.used hl⟩

/-- A link that is claimed is unused, and used from then on. -/
theorem claim_fresh {w' : AccountWorld} {id : Id} {time : Time}
    (hact : w.Act i r (.update (.useLink realm id time) true) w') :
    ¬ Used ((w.view i).row (.link realm id)) := by
  rintro ⟨l, hl, hused⟩
  cases hact with
  | hit u hguard hfree =>
      change ((w.view i).row (.link realm id)).any (fun l => l.usedAt.isNone) = true at hguard
      rw [hl] at hguard
      simp [Option.isSome_iff_ne_none] at hused hguard
      exact hused hguard

theorem claim_used {w' : AccountWorld} {id : Id} {time : Time}
    (hact : w.Act i r (.update (.useLink realm id time) true) w') :
    Used ((w'.view i).row (.link realm id)) := by
  cases hact with
  | hit u hguard hfree =>
      obtain ⟨l, hl, -⟩ := (Option.any_eq_true _ _).1 hguard
      rw [World.push_view_self]
      refine ⟨{ l with usedAt := some time }, ?_, rfl⟩
      refine (applyUpdate_row_self (S := accounts) _ _).trans ?_
      exact congrArg (Option.map _) hl

theorem resetBy_once (hdb : DistinctHashes (.link realm) db)
    (htrace : World.Trace TokenLaw (LinkOrder db) (World.initial db) w) {i j : ℕ} {raw : Id}
    (hi : ResetBy w i realm raw) (hj : ResetBy w j realm raw) : i = j := by
  obtain ⟨ri, txi, hmemi, hri⟩ := hi
  obtain ⟨rj, txj, hmemj, hrj⟩ := hj
  obtain ⟨hi, howni, hendedi, -, hkeepsi⟩ := own_of_returned htrace hmemi
  obtain ⟨hj, hownj, hendedj, -, hkeepsj⟩ := own_of_returned htrace hmemj
  obtain ⟨linki, hdonei⟩ := hendedi.reset realm raw hri
  obtain ⟨linkj, hdonej⟩ := hendedj.reset realm raw hrj
  obtain ⟨scopei, hfoundi⟩ := hdonei.found
  obtain ⟨scopej, hfoundj⟩ := hdonej.found
  have hsame : linki.1 = linkj.1 := by
    have hownsi := owns_of_found hdb htrace (howni ▸ List.mem_cons_of_mem _ hfoundi)
    have hownsj := owns_of_found hdb htrace (hownj ▸ List.mem_cons_of_mem _ hfoundj)
    exact (Key.link.inj (((linkNames_kept hdb).named htrace).unique _ _ _ _ hownsi hownsj rfl).1).2
  obtain ⟨timei, hclaimedi⟩ := hdonei.claimed
  obtain ⟨timej, hclaimedj⟩ := hdonej.claimed
  obtain ⟨ri', hentryi⟩ := World.mem_own.1 (howni ▸ List.mem_cons_of_mem _ hclaimedi)
  obtain ⟨rj', hentryj⟩ := World.mem_own.1 (hownj ▸ List.mem_cons_of_mem _ hclaimedj)
  exact tokenDiscipline_kept.exclusive (tokenDiscipline_good db) htrace
    (k := .link realm linki.1) (T := Used) (A := fun u => ∃ time, u = .useLink realm linki.1 time) (fun _ _ hrel hused => hused.moved hrel)
    (by rintro _ ⟨time, rfl⟩; rfl) (by rintro v i r _ v' - hm ⟨time, rfl⟩; exact claim_fresh hm.act)
    (by rintro v i r _ v' - hm ⟨time, rfl⟩; exact claim_used hm.act) hentryi ⟨timei, rfl⟩ hentryj
    ⟨timej, by rw [hsame]⟩ hkeepsi hkeepsj

/-! ## A reset voids the other links -/

theorem found_link {scope : Option Id} {tokenHash : TokenHash} {link : Id × PasswordResetToken}
    (htrace : World.Trace TokenLaw (LinkOrder db) (World.initial db) w)
    (hkeeps : ∀ e ∈ w.own i, ¬ e.GivesUp)
    (hfound : .query (.resetToken realm scope tokenHash) (some link) ∈ w.own i) :
    ∃ l, (w.view i).row (.link realm link.1) = some l ∧ SameLink link.2 l := by
  obtain ⟨later, earlier, hown⟩ := List.append_of_mem hfound
  refine tokenDiscipline_kept.view_since (tokenDiscipline_good db) htrace hkeeps
    (T := fun s => ∃ l, s.row (.link realm link.1) = some l ∧ SameLink link.2 l) ?_ hown ?_
  · rintro s s' hrel ⟨l, hl, hsame⟩
    obtain ⟨l', hl', hsame'⟩ := hrel (.link realm link.1) l hl
    exact ⟨l', hl', hsame'.accountId.trans hsame.accountId, hsame'.tokenHash.trans hsame.tokenHash,
      hsame'.used ∘ hsame.used⟩
  · intro v r v' _ hm _
    rw [hm.act.query_view]
    exact ⟨link.2, (row_of_resetToken hm.act.query_eq).1, rfl, rfl, fun h => h⟩

/-- A link that is new to the store was issued by the update. -/
theorem issues_of_change {u : Update} {v : Option (Row u.key)} {y : Row u.key}
    (hy : u.change v = some y) (hv : v = none) (hmember : linkOf realm accountId u.key y) :
    u.issues = some (realm, accountId) := by
  subst hv
  cases u with
  | insertLink realm' id row =>
      cases hy
      obtain ⟨rfl, rfl⟩ := hmember
      rfl
  | useLink realm' id time => cases hy
  | _ => exact hmember.elim

theorem issues_of_stands {u : Update} {s : Database} {z : Row u.key} (hz : u.change none = some z)
    (hstands : tokenDiscipline.Stands u s) (hhas : (linkSweep realm accountId).Has u.key s) :
    u.issues = some (realm, accountId) := by
  obtain ⟨v, hguard, hrel⟩ := hstands
  obtain ⟨x, hx, hmember⟩ := hhas
  cases u with
  | insertLink realm' id row =>
      obtain ⟨l, hl, hsame⟩ := hrel row rfl
      cases hx.symm.trans hl
      obtain ⟨rfl, haccount⟩ := hmember
      simp [Update.issues, ← haccount, hsame.accountId]
  | useLink realm' id time => cases hz
  | _ => exact hmember.elim

theorem issuing_of_mem {j : ℕ} {u : Update} {account : Realm × Id} (hw : w.Tidy) (hj : j ≠ i)
    (hu : u ∈ w.tx j) (hissues : u.issues = some account) : issuing w i account = true := by
  have hopen := hu
  rw [hw.tx_eq j] at hopen
  obtain ⟨later, earlier, hown, -⟩ := exists_of_mem_openTx hopen
  obtain ⟨r, hmem⟩ := World.mem_own.1 (hown ▸ List.mem_append_right _ List.mem_cons_self)
  refine List.any_eq_true.2 ⟨_, hmem, Bool.and_eq_true_iff.2 ⟨bne_iff_ne.2 hj, ?_⟩⟩
  exact List.any_eq_true.2 ⟨u, hu, decide_eq_true hissues⟩

theorem ended_eq_false {h : List Ev} (hlive : ∀ e ∈ h, ¬ e.Final) : ended h = false := by
  cases h with
  | nil => rfl
  | cons e h =>
      have he := hlive e List.mem_cons_self
      cases e <;> first | rfl | exact absurd trivial he

theorem voiding_of_query {ids : List Id}
    (hmem : ⟨b, r, .query (.linksOf realm accountId) ids⟩ ∈ w.log) (hr : r.resets.isSome = true)
    (hlive : ∀ e ∈ w.own b, ¬ e.Final) : voiding w (realm, accountId) = true := by
  refine List.any_eq_true.2 ⟨_, hmem, ?_⟩
  simp [hr, listsLinks, Query.listsLinks, ended_eq_false hlive]

theorem account_of_found {scope scope' : Option Id} {raw : Id} {link link' : Id × PasswordResetToken}
    (hdb : DistinctHashes (.link realm) db)
    (htrace : World.Trace TokenLaw (LinkOrder db) (World.initial db) w)
    (hkeeps : ∀ e ∈ w.own i, ¬ e.GivesUp)
    (hfound : .query (.resetToken realm scope (hashRandom raw)) (some link) ∈ w.own i)
    (hfound' : .query (.resetToken realm scope' (hashRandom raw)) (some link') ∈ w.own i) :
    link.2.accountId = link'.2.accountId := by
  have hkey : link.1 = link'.1 := by
    have howns := owns_of_found hdb htrace hfound
    have howns' := owns_of_found hdb htrace hfound'
    exact (Key.link.inj (((linkNames_kept hdb).named htrace).unique _ _ _ _ howns howns' rfl).1).2
  obtain ⟨l, hl, hsame⟩ := found_link htrace hkeeps hfound
  obtain ⟨l', hl', hsame'⟩ := found_link htrace hkeeps hfound'
  rw [hkey, hl'] at hl
  cases hl
  exact hsame.accountId.symm.trans hsame'.accountId

/-- Right after a reset every link of the account is used. -/
theorem used_of_justReset (hdb : DistinctHashes (.link realm) db)
    (htrace : World.Trace TokenLaw (LinkOrder db) (World.initial db) w)
    (hreset : JustReset w realm accountId) {j : ℕ} {id : Id} {l : PasswordResetToken}
    (hrow : (w.view j).row (.link realm id) = some l) (haccount : l.accountId = accountId) :
    Used (w.db.row (.link realm id)) := by
  obtain ⟨b, r, tx, log, raw, scope, link, hlog, hr, hfound, hlink⟩ := hreset
  obtain ⟨earlier, hown, hended, hlive, hkeeps⟩ :=
    own_of_returned htrace (hlog ▸ List.mem_cons_self)
  obtain ⟨link', hdone⟩ := hended.reset realm raw hr
  obtain ⟨scope', hfound'⟩ := hdone.found
  have hsame := account_of_found hdb htrace hkeeps hfound (hown ▸ List.mem_cons_of_mem _ hfound')
  obtain ⟨ids, time, hwent⟩ := hdone.links
  rw [← hsame, hlink] at hwent
  have hwent' := hwent.mono (by rw [hown]; exact List.suffix_cons _ _ : earlier <:+ w.own b)
  have hrequest : ∀ r' e, ⟨b, r', e⟩ ∈ w.log → r'.resets.isSome = true := by
    intro r' e hmem
    have hlast : ⟨b, r, .returned tx⟩ ∈ w.log := hlog ▸ List.mem_cons_self
    obtain rfl : r' = r := htrace.request_eq _ hmem _ hlast rfl
    rw [hr]
    rfl
  have hdone := Discipline.Sweep.done (X := linkSweep realm accountId) tokenDiscipline_kept
    (tokenDiscipline_good db) htrace hkeeps (lists_linksOf ids) (swept_links hwent')
    hwent'.listed ?_ ?_ j (.link realm id) ⟨l, hrow, rfl, haccount⟩
  · obtain ⟨x, hx, -, hused⟩ := hdone
    have htx : w.tx b = [] := by
      rw [(World.Trace.tidy (World.initial_tidy db) htrace).tx_eq b, hown, openTx_returned]
    rw [World.view_of_tx_nil htx] at hx
    exact ⟨x, hx, hused⟩
  · intro v r' v' hv hm hrest j hj k hhas
    by_contra hnot
    obtain ⟨u, hu, rfl, ⟨z, hz⟩, hstands⟩ := Discipline.Sweep.exists_insert (tokenDiscipline_inv hv) hhas hnot
    have hissuing := issuing_of_mem (World.Trace.tidy (World.initial_tidy db) hv) hj hu
      (issues_of_stands hz hstands hhas)
    have hr' := hrequest r' _ (hrest.log_suffix.subset (hm.act.log_eq ▸ List.mem_cons_self))
    have hallow := (Bool.and_eq_true_iff.1 hm.allowed).2
    simp [Option.isNone_iff_eq_none, Option.isSome_iff_ne_none.1 hr', Query.listsLinks,
      hissuing] at hallow
  · intro v i r' u v' hv hm hrest hquery y hy hmember
    by_contra hnone
    have hissues := issues_of_change hy (Option.eq_none_iff_forall_ne_some.2 fun z hz =>
      hnone ⟨z, hz⟩) hmember
    obtain ⟨r'', hmem⟩ := World.mem_own.1 hquery
    have hsuffix : v.log <:+ w.log := by
      refine .trans ?_ hrest.log_suffix
      rw [hm.act.log_eq]
      exact List.suffix_cons _ _
    have hvoiding := voiding_of_query hmem (hrequest r'' _ (hsuffix.subset hmem)) (htrace.live_before hlog hm.act hrest)
    have hallow := (Bool.and_eq_true_iff.1 hm.allowed).2
    simp [hissues, hvoiding] at hallow

/-- A link that was issued before a reset succeeded opens nothing after it. -/
theorem not_resetBy (hdb : DistinctHashes (.link realm) db)
    (htrace : World.Trace TokenLaw (LinkOrder db) (World.initial db) w) {w' : AccountWorld}
    (hlater : World.Trace TokenLaw (LinkOrder db) w w') {raw : Id}
    (hreset : JustReset w realm accountId) (hissued : IssuedLink w realm accountId raw)
    (hidle : w.own i = []) : ¬ ResetBy w' i realm raw := by
  rintro ⟨r, tx, hmem, hr⟩
  have htrace' := htrace.trans hlater
  obtain ⟨j, id, l, hrow, haccount, hhash⟩ := hissued
  obtain ⟨earlier, hown, hended, -, -⟩ := own_of_returned htrace' hmem
  obtain ⟨link, hdone⟩ := hended.reset realm raw hr
  obtain ⟨scope, hfound⟩ := hdone.found
  obtain ⟨time, hclaimed⟩ := hdone.claimed
  have hkey : link.1 = id := by
    have howns := owns_of_found hdb htrace' (hown ▸ List.mem_cons_of_mem _ hfound)
    obtain ⟨x, hx, hmark⟩ := bears_link hrow hhash
    have howns' := (((linkNames_kept hdb).named htrace).rows.view j _ x raw hx hmark).mono
      hlater.log_suffix
    exact (Key.link.inj (((linkNames_kept hdb).named htrace').unique _ _ _ _ howns howns' rfl).1).2
  obtain ⟨r', hentry⟩ := World.mem_own.1 (hown ▸ List.mem_cons_of_mem _ hclaimed)
  have hnew : (⟨i, r', .update (.useLink realm link.1 time) true⟩ : Entry accounts Request) ∉ w.log := by
    intro hold
    have hmem' := World.mem_own.2 ⟨r', hold⟩
    rw [hidle] at hmem'
    cases hmem'
  obtain ⟨v, v', hv, hm, -⟩ := hlater.exists_move hentry hnew
  have hinv := tokenDiscipline_inv htrace
  have hinv' := tokenDiscipline_inv (Relation.ReflTransGen.trans htrace hv)
  have hused := used_of_justReset hdb htrace hreset hrow haccount
  have hused' : Used (v.db.row (.link realm id)) := hused.moved (tokenDiscipline_kept.rel
    (World.Trace.tidy (World.initial_tidy db) htrace) hinv hv (.link realm id))
  rw [hkey] at hm
  exact claim_fresh hm.act (hused'.moved (hinv'.view_rel i (.link realm id)))

/-- **Reset links**: in every run in which links are issued and voided in order, a link
opens its account at most once, and not after another has. -/
theorem reset_links {limits : Limits} {db : Database} {s t : AccountSystem}
    (hdb : ∀ realm, DistinctHashes (.link realm) db)
    (hs : System.Runs (handler limits) (fun _ => True) (LinkOrder db) (System.initial db) s)
    (ht : System.Runs (handler limits) (fun _ => True) (LinkOrder db) s t) : LinksHold s t := by
  obtain ⟨htrace, hs'⟩ :=
    Traced.trace (fun r _ => handler_tokenLaw limits r) (System.initial_traced db) hs
  obtain ⟨hlater, -⟩ := Traced.trace (fun r _ => handler_tokenLaw limits r) hs' ht
  constructor
  · intro i j realm raw hi hj
    exact resetBy_once (hdb realm) (htrace.trans hlater) hi hj
  · intro realm accountId raw i hreset hissued hidle
    exact not_resetBy (hdb realm) htrace hlater hreset hissued (hs'.idle i hidle)

/-! ## Runs -/

def foundLink (presented : Realm × Id) : Ev → Option (Id × PasswordResetToken)
  | .query (.resetToken realm _ tokenHash) link =>
      if realm = presented.1 ∧ tokenHash = hashRandom presented.2 then link else none
  | _ => none

def lastReset (w : AccountWorld) : Option (Realm × Id) :=
  match w.log with
  | ⟨b, r, .returned _⟩ :: _ => r.resets.bind fun presented =>
      ((w.own b).findSome? (foundLink presented)).map fun link => (presented.1, link.2.accountId)
  | _ => none

theorem of_foundLink {presented : Realm × Id} {e : Ev} {link : Id × PasswordResetToken}
    (h : foundLink presented e = some link) : ∃ scope,
      e = .query (.resetToken presented.1 scope (hashRandom presented.2)) (some link) := by
  cases e with
  | query q x =>
      cases q with
      | resetToken realm scope tokenHash =>
          obtain ⟨⟨rfl, rfl⟩, rfl⟩ := Option.ite_none_right_eq_some.1 h
          exact ⟨scope, rfl⟩
      | _ => cases h
  | _ => cases h

theorem justReset_of_lastReset (h : lastReset w = some (realm, accountId)) :
    JustReset w realm accountId := by
  unfold lastReset at h
  split at h
  · next b r tx log hlog =>
      obtain ⟨presented, hr, h⟩ := Option.bind_eq_some_iff.1 h
      obtain ⟨link, hfound, heq⟩ := Option.map_eq_some_iff.1 h
      obtain ⟨e, hmem, hlink⟩ := List.exists_of_findSome?_eq_some hfound
      obtain ⟨scope, rfl⟩ := of_foundLink hlink
      cases heq
      exact ⟨b, r, tx, log, presented.2, scope, link, hlog, hr, hmem, rfl⟩
  · cases h

def invited : Database :=
  Store.empty.set (.link .staff 1) (some ⟨7, hashRandom 1, 9000000, none⟩) |>.set (.user 7) (some
    { email := "ana@mugs.test", name := "Ana", passwordHash := "cobalt", globalRole := .user
      isActive := true, totpSecret := none, twoFactorEnabled := false })

theorem invited_distinct (realm : Realm) : DistinctHashes (.link realm) invited := by
  have hall : (invited.keys.all fun k => invited.keys.all fun k' => decide (k = k') ||
      !((invited.row k).bind (storedAs k)).isSome || !((invited.row k').bind (storedAs k')).isSome) =
      true := by decide +kernel
  rintro k k' raw ⟨x, hx, hmark⟩ ⟨x', hx', hmark'⟩
  have hkeys := List.all_eq_true.1 (List.all_eq_true.1 hall k (invited.mem_keys_of_row hx)) k'
    (invited.mem_keys_of_row hx')
  obtain ⟨stored, hstored, -⟩ := Option.bind_eq_some_iff.1 hmark
  obtain ⟨stored', hstored', -⟩ := Option.bind_eq_some_iff.1 hmark'
  simpa [hx, hx', hstored, hstored'] using hkeys

/-- The outside at eight o'clock, where every random number is `fresh`. -/
def drawing (fresh : Id) : (c : Call) → c.Answer
  | .redis => true
  | .now => 8000000
  | .issuedAt => 8000
  | .uuid => fresh
  | .randomBytes => fresh
  | .generateSecret => ""
  | .comparePassword _ _ => true
  | .hashPassword password => password
  | .checkTotp _ _ => true
  | .sendResetMail _ => true
  | .respondMobileRefresh _ => ()

def resetWith (token : Id) : Request := .resetPassword false ⟨token, "indigo"⟩

/-- The reset `i` has succeeded with the link. -/
def opened (w : AccountWorld) (i : ℕ) (realm : Realm) (raw : Id) : Bool :=
  w.log.any fun entry => entry.pid == i && entry.request.resets == some (realm, raw) &&
    match entry.event with
    | .returned _ => true
    | _ => false

theorem resetBy_of_opened {raw : Id} (h : opened w i realm raw = true) : ResetBy w i realm raw := by
  obtain ⟨⟨j, r, e⟩, hmem, hentry⟩ := List.any_eq_true.1 h
  simp only [Bool.and_eq_true, beq_iff_eq] at hentry
  obtain ⟨⟨rfl, hr⟩, hreturned⟩ := hentry
  cases e with
  | returned tx => exact ⟨r, tx, hmem, hr⟩
  | _ => cases hreturned

/-- The account 7 has just been reset, its link 60 is there, and process 2 is still to
come. -/
def outlived (s : AccountSystem) : Bool :=
  decide (lastReset s.world = some (.staff, 7)) &&
    ((s.world.view 0).row (.link .staff 60)).any (fun l : PasswordResetToken =>
      l.accountId == 7 && l.tokenHash == hashRandom 60) &&
    match s.proc 2 with
    | .idle => true
    | _ => false

/-- A reset with the link 1, and another attempt with it. -/
theorem reset_links_twice : ∃ s t : AccountSystem, JustReset s.world .staff 7 ∧ LinksHold s t := by
  obtain ⟨s, t, hs, ht, hreset, -⟩ := System.exists_runs_of_play (handler throttleLimits)
    (fun _ => true) (linkOrder invited) (System.initial invited)
    [.start 0 (resetWith 1), .steps 0 18 (drawing 50)] [.start 1 (resetWith 1), .steps 1 3 (drawing 51)]
    (fun s => lastReset s.world) (fun _ => ()) (by decide +kernel : _ = some (some (.staff, 7), ()))
  exact ⟨s, t, justReset_of_lastReset hreset, reset_links invited_distinct
    (hs.mono (fun _ _ => trivial) fun _ _ _ _ h => h)
    (ht.mono (fun _ _ => trivial) fun _ _ _ _ h => h)⟩

/-- A link is issued while a reset goes through the tokens: it still opens the
account afterwards. -/
theorem link_outlives_reset : ¬ ∀ (limits : Limits) (db : Database) (s t : AccountSystem),
    (∀ realm, DistinctHashes (.link realm) db) →
    System.Runs (handler limits) (fun _ => True) (fun w _ _ e => freshRandom db w e = true)
      (System.initial db) s →
    System.Runs (handler limits) (fun _ => True) (fun w _ _ e => freshRandom db w e = true) s t →
    LinksHold s t := by
  intro hall
  obtain ⟨s, t, hs, ht, hend, hopened⟩ := System.exists_runs_of_play (handler throttleLimits)
    (fun _ => true) (fun w _ _ e => freshRandom invited w e) (System.initial invited)
    [.start 0 (resetWith 1), .steps 0 8 (drawing 50), .start 1 (.issueLink false 7 100000),
      .steps 1 9 (drawing 60), .steps 0 10 (drawing 50)]
    [.start 2 (resetWith 60), .steps 2 18 (drawing 70)]
    outlived (fun t => opened t.world 2 .staff 60) (by decide +kernel : _ = some (true, true))
  have hhold := hall throttleLimits invited s t invited_distinct
    (hs.mono (fun _ _ => trivial) fun _ _ _ _ h => h) (ht.mono (fun _ _ => trivial) fun _ _ _ _ h => h)
  obtain ⟨hbefore, hidle⟩ := Bool.and_eq_true_iff.1 hend
  obtain ⟨hreset, hissued⟩ := Bool.and_eq_true_iff.1 hbefore
  obtain ⟨l, hrow, hl⟩ := (Option.any_eq_true _ _).1 hissued
  obtain ⟨haccount, hhash⟩ := Bool.and_eq_true_iff.1 hl
  refine hhold.void .staff 7 60 2 (justReset_of_lastReset (of_decide_eq_true hreset))
    ⟨0, 60, l, hrow, beq_iff_eq.1 haccount, beq_iff_eq.1 hhash⟩ ?_ (resetBy_of_opened hopened)
  split at hidle
  · assumption
  · cases hidle

end WhatStore.Accounts
