import WhatStore.Accounts.Kinds
import WhatStore.ReadCommitted.Tally

/-!
# The budget of guesses

A request that guesses a password or a code reads the counter of failures first
and is let through below the limit. It checks the guess, which takes a while, and
then records the failure or clears the counter. So the failures that will still
be recorded are those of the requests in flight, and the budget holds when a
request is let through only while these and the recorded ones leave room for it.
-/

namespace WhatStore.Accounts

open ReadCommitted ReadCommitted.Prog

def Request.guesses (limits : Limits) : Request → Option Counter
  | .login _ dto => some (limits.loginCounter dto.email)
  | .verifyTwoFactor _ (.signed jwt) _ _ => (AuthService.challenged jwt.payload).map .twoFactor
  | .enableTwoFactor _ userId _ _ => some (.twoFactorManage userId)
  | .disableTwoFactor _ userId _ _ => some (.twoFactorManage userId)
  | .loginCustomer tenantId dto => some (limits.customerLoginCounter tenantId dto.email)
  | _ => none

def Limits.of (limits : Limits) : Counter → Nat
  | .login _ => limits.login
  | .twoFactor _ => limits.totp
  | .twoFactorManage _ => limits.totp
  | .customerLogin _ _ => limits.customerLogin

/-- What a comparison of a password or of a code answers. -/
def checked : Ev → Option Bool
  | .call (.comparePassword _ _) valid => some valid
  | .call (.checkTotp _ _) valid => some valid
  | _ => none

def failedCheck (e : Ev) : Bool := checked e == some false

def Update.drops (c : Counter) : Update → Bool
  | .del c' => c' == c
  | .lapse c' => c' == c
  | _ => false

/-- The counter is set back, by a success or by the end of its window. -/
def resets (c : Counter) : Ev → Bool
  | .committed tx => tx.any (Update.drops c)
  | .returned tx => tx.any (Update.drops c)
  | _ => false

/-- The failed checks against the counter since it was set back last. -/
def failedSince (limits : Limits) (c : Counter) : List (Entry accounts Request) → Nat
  | [] => 0
  | entry :: log =>
    if resets c entry.event then 0
    else failedSince limits c log +
      (failedCheck entry.event && decide (entry.request.guesses limits = some c)).toNat

def redisUp : Ev → Bool
  | .call .redis up => up
  | _ => true

def endsTx : Ev → Bool
  | .committed _ => true
  | .rolledBack => true
  | .returned _ => true
  | .threw _ => true
  | _ => false

/-- The request is let through to a check against the counter. -/
def letThrough (limits : Limits) (c : Counter) : Ev → Bool
  | .query (.failures c') n => decide (c' = c ∧ n < limits.of c)
  | _ => false

/-- The request was let through, and has neither recorded a failure nor cleared the
counter yet. -/
def inFlight (limits : Limits) (c : Counter) : List Ev → Bool
  | [] => false
  | e :: h => letThrough limits c e || (!endsTx e && inFlight limits c h)

/-- A request is let through only while the failures on record and the requests in
flight are fewer than the limit. -/
def admits (limits : Limits) (w : AccountWorld) : Ev → Bool
  | .query (.failures c) n => decide (limits.of c ≤ n) ||
      decide (Query.eval (.failures c) w.db + w.tally (inFlight limits c) < limits.of c)
  | _ => true

/-! ## The law of guesses -/

def missed : List Ev → Bool
  | [] => false
  | e :: h => ((checked e).map (!·)).getD (missed h)

def owing (limits : Limits) (c : Counter) (h : List Ev) : Bool := inFlight limits c h && missed h

/-- Every command has reached Redis, and `INCR` always succeeds. -/
structure Unfailing (h : List Ev) : Prop where
  up : .call .redis false ∉ h
  incr : ∀ c, .update (.incr c) false ∉ h

theorem Unfailing.tail {e : Ev} {h : List Ev} (hup : Unfailing (e :: h)) : Unfailing h :=
  ⟨fun hmem => hup.up (List.mem_cons_of_mem _ hmem),
    fun c hmem => hup.incr c (List.mem_cons_of_mem _ hmem)⟩

/-- The request is in flight for its counter alone, and has not missed. -/
def Poised (limits : Limits) (r : Request) (h : List Ev) : Prop :=
  ∃ c, r.guesses limits = some c ∧ inFlight limits c h = true ∧ missed h = false ∧
    ∀ c', c' ≠ c → inFlight limits c' h = false

/-- The open transaction records the failures that are owed, and only those of a
request in flight. -/
def Settles (limits : Limits) (h : List Ev) : Prop :=
  ∀ c, (owing limits c h = true → .incr c ∈ openTx h) ∧
    (.incr c ∈ openTx h → inFlight limits c h = true)

/-- What may come next in a request: a command to Redis is a transaction of its own,
a check comes after the request was let through, and a failure is recorded before
anything ends. -/
def GuessLaw (limits : Limits) (r : Request) (h : List Ev) : Ev → Prop
  | .query q _ => ∀ c, q = .failures c → r.guesses limits = some c ∧ openTx h = []
  | .call x a => checked (.call x a) ≠ none → Unfailing h → Poised limits r h
  | .update u _ => (u.kind = .count → openTx h = []) ∧ ∀ v ∈ openTx h, v.kind ≠ .count
  | .committed _ => Unfailing h → Settles limits h
  | .returned _ => Unfailing h → Settles limits h
  | .threw _ => Unfailing h → ∀ c, owing limits c h = false
  | .rolledBack => False

variable {limits : Limits} {r : Request} {c : Counter} {h : List Ev} {K : List Kind} {e : Ev}
  {α β : Type}

theorem inFlight_cons : inFlight limits c (e :: h) =
    (letThrough limits c e || (!endsTx e && inFlight limits c h)) := rfl

theorem missed_cons : missed (e :: h) = ((checked e).map (!·)).getD (missed h) := rfl

@[simp] theorem inFlight_call {x : Call} {a : x.Answer} :
    inFlight limits c (.call x a :: h) = inFlight limits c h := rfl

@[simp] theorem inFlight_update {u : Update} {hit : Bool} :
    inFlight limits c (.update u hit :: h) = inFlight limits c h := rfl

@[simp] theorem inFlight_committed {tx : List Update} :
    inFlight limits c (.committed tx :: h) = false := rfl

@[simp] theorem missed_query {q : Query} {x : q.Result} : missed (.query q x :: h) = missed h := rfl

@[simp] theorem missed_update {u : Update} {hit : Bool} :
    missed (.update u hit :: h) = missed h := rfl

theorem letThrough_of_kind (he : kind e ≠ .count) : letThrough limits c e = false := by
  cases e with
  | query q x => cases q <;> first | rfl | exact absurd rfl he
  | _ => rfl

theorem checked_of_kind (he : kind e ≠ .guess) : checked e = none := by
  cases e with
  | call x a => cases x <;> first | rfl | exact absurd rfl he
  | _ => rfl

/-- A process without a command to Redis in its transaction may go on with anything
else. -/
theorem guessLaw_of_kind (hcount : kind e ≠ .count) (hguess : kind e ≠ .guess)
    (hundo : kind e ≠ .undo) (htx : ∀ v ∈ openTx h, v.kind ≠ .count)
    (howing : ∀ c, owing limits c h = false) : GuessLaw limits r h e := by
  have hsettles : Settles limits h := by
    intro c
    constructor
    · simp [howing c]
    · intro hmem
      exact absurd rfl (htx _ hmem)
  cases e with
  | query q x =>
      rintro c rfl
      exact absurd rfl hcount
  | call x a => exact fun hchecked => absurd (checked_of_kind hguess) hchecked
  | update u hit => exact ⟨fun hu => absurd hu hcount, htx⟩
  | committed tx => exact fun _ => hsettles
  | returned tx => exact fun _ => hsettles
  | threw err => exact fun _ => howing
  | rolledBack => exact absurd rfl hundo

/-! ### Requests that owe nothing -/

/-- No command to Redis is open, and no failure is owed. -/
structure Calm (limits : Limits) (h : List Ev) : Prop where
  tx : ∀ v ∈ openTx h, v.kind ≠ .count
  clear : ∀ c, owing limits c h = false

theorem calm_nil : Calm limits [] := ⟨by simp, fun _ => rfl⟩

theorem owing_cons (hcount : kind e ≠ .count) (hguess : kind e ≠ .guess)
    (howing : owing limits c h = false) : owing limits c (e :: h) = false := by
  rw [owing, inFlight_cons, missed_cons, letThrough_of_kind hcount, checked_of_kind hguess]
  cases hends : endsTx e with
  | true => rfl
  | false => simpa [owing] using howing

theorem Calm.step (hh : Calm limits h) (hcount : kind e ≠ .count) (hguess : kind e ≠ .guess)
    (hundo : kind e ≠ .undo) : GuessLaw limits r h e ∧ Calm limits (e :: h) := by
  refine ⟨guessLaw_of_kind hcount hguess hundo hh.tx hh.clear, ?_,
    fun c => owing_cons hcount hguess (hh.clear c)⟩
  cases e with
  | query q x => exact hh.tx
  | call x a => exact hh.tx
  | update u hit =>
      intro v hv
      cases hit with
      | false => exact hh.tx v hv
      | true =>
          rcases List.mem_cons.1 hv with rfl | hv
          · exact hcount
          · exact hh.tx v hv
  | committed tx => simp
  | returned tx => simp
  | threw err => simp
  | rolledBack => simp

theorem Does.calm {p : Prog accounts α} (hp : Does K p) (hcount : .count ∉ K)
    (hguess : .guess ∉ K) (hundo : .undo ∉ K) (hh : Calm limits h) :
    p.Along (GuessLaw limits r) h fun _ h' => Calm limits h' := by
  refine Only.along_keeping hp hh fun h e _ hh he => ?_
  have hkind : ∀ k, k ≠ .plain → k ∉ K → kind e ≠ k := by
    rintro k hplain hk rfl
    exact he.elim hplain hk
  exact hh.step (hkind _ nofun hcount) (hkind _ nofun hguess) (hkind _ nofun hundo)

/-! ### Requests that guess -/

/-- A guess against the counter `current` is under way, if any is, outside of a
transaction; `miss` says whether it was wrong. -/
structure Stage (limits : Limits) (current : Option Counter) (miss : Bool) (h : List Ev) :
    Prop where
  tx : openTx h = []
  missed : missed h = miss
  others : ∀ c, current ≠ some c → inFlight limits c h = false
  flight : ∀ c, current = some c → Unfailing h → inFlight limits c h = true

variable {current : Option Counter} {miss : Bool} {Q : β → List Ev → Prop}

theorem stage_nil : Stage limits none false [] := ⟨rfl, rfl, fun _ _ => rfl, nofun⟩

theorem Stage.calm (hh : Stage limits current false h) : Calm limits h := by
  constructor
  · simp [hh.tx]
  · simp [owing, hh.missed]

theorem Stage.step (hh : Stage limits current false h) (hcount : kind e ≠ .count)
    (hguess : kind e ≠ .guess) (hundo : kind e ≠ .undo) (hends : endsTx e = false)
    (htx : openTx (e :: h) = []) :
    GuessLaw limits r h e ∧ Stage limits current false (e :: h) := by
  refine ⟨(hh.calm.step hcount hguess hundo).1, htx, ?_, fun c hc => ?_, fun c hc hup => ?_⟩
  · rw [missed_cons, checked_of_kind hguess]
    exact hh.missed
  · rw [inFlight_cons, letThrough_of_kind hcount, hends]
    exact hh.others c hc
  · rw [inFlight_cons, letThrough_of_kind hcount, hends]
    exact hh.flight c hc hup.tail

theorem Stage.ask (hh : Stage limits current false h) {q : Query} {f : q.Result → Prog accounts β}
    (hq : ∀ x, kind (.query q x) = .plain)
    (hk : ∀ x h', Stage limits current false h' → (f x).Along (GuessLaw limits r) h' Q) :
    (Prog.query (S := accounts) q .ret >>= f).Along (GuessLaw limits r) h Q := by
  have hstep := fun x => hh.step (r := r) (e := .query q x) (by simp [hq]) (by simp [hq])
    (by simp [hq]) rfl hh.tx
  exact along_ask (fun x => (hstep x).1) fun s => hk _ _ (hstep _).2

theorem Stage.invoke (hh : Stage limits current false h) {x : Call} {f : x.Answer → Prog accounts β}
    (hx : ∀ a, kind (.call x a) = .plain)
    (hk : ∀ a h', Stage limits current false h' → (f a).Along (GuessLaw limits r) h' Q) :
    (Prog.call (S := accounts) x .ret >>= f).Along (GuessLaw limits r) h Q := by
  have hstep := fun a => hh.step (r := r) (e := .call x a) (by simp [hx]) (by simp [hx])
    (by simp [hx]) rfl hh.tx
  exact along_invoke (fun a => (hstep a).1) fun a => hk _ _ (hstep a).2

theorem Stage.demand (hh : Stage limits current false h) {o : Option α} {err : Err}
    {f : α → Prog accounts β} (hk : ∀ a, o = some a → (f a).Along (GuessLaw limits r) h Q) :
    (orThrow o err >>= f).Along (GuessLaw limits r) h Q :=
  along_seq.2 (along_orThrow.2 ⟨fun _ _ => hh.calm.clear, hk⟩)

theorem Stage.check (hh : Stage limits (some c) false h) (hr : r.guesses limits = some c)
    {x : Call} {verdict : x.Answer → Bool} {f : x.Answer → Prog accounts β}
    (hx : ∀ a, checked (.call x a) = some (verdict a))
    (hk : ∀ a h', Stage limits (some c) (!verdict a) h' → (f a).Along (GuessLaw limits r) h' Q) :
    (Prog.call (S := accounts) x .ret >>= f).Along (GuessLaw limits r) h Q := by
  refine along_invoke (fun a _ hup => ?_) fun a => hk a _ ⟨hh.tx, ?_, hh.others, ?_⟩
  · exact ⟨c, hr, hh.flight c rfl hup, hh.missed, fun c' hc' => hh.others c' (by simp [hc'.symm])⟩
  · simp [missed_cons, hx a]
  · exact fun c' hc' hup => hh.flight c' hc' hup.tail

theorem assertNotLocked_along {counter : Counter} {f : Unit → Prog accounts β}
    (hh : Stage limits none false h) (hr : r.guesses limits = some counter)
    (hk : ∀ h', Stage limits (some counter) false h' → (f ()).Along (GuessLaw limits r) h' Q) :
    (assertNotLocked counter (limits.of counter) >>= f).Along (GuessLaw limits r) h Q := by
  refine along_seq.2 (along_invoke (fun _ => nofun) fun up => along_runIf.2 ⟨?_, ?_⟩)
  · rintro rfl
    refine along_ask (fun n c hc => ?_) fun s => ?_
    · cases hc
      exact ⟨hr, hh.tx⟩
    refine along_throwIf.2 ⟨fun _ _ c => ?_, fun hn => ?_⟩
    · simp [owing, missed_cons, checked, hh.missed]
    refine hk _ ⟨hh.tx, hh.missed, fun c hc => ?_, fun c hc _ => ?_⟩
    · have hne : counter ≠ c := fun heq => hc (congrArg some heq)
      simpa [inFlight_cons, letThrough, hne, endsTx] using hh.others c nofun
    · cases hc
      simpa [inFlight_cons, letThrough] using Or.inl (by simpa using hn)
  · rintro rfl
    refine hk _ ⟨hh.tx, hh.missed, fun c hc => ?_, fun c hc hup => ?_⟩
    · simpa using hh.others c nofun
    · exact absurd List.mem_cons_self hup.up

/-- A command to Redis other than `INCR`, from a process that owes nothing. -/
theorem command_along {u : Update} (hu : ∀ c, u ≠ .incr c) (htx : openTx h = [])
    (howing : ∀ c, owing limits c h = false) :
    (Prog.call (S := accounts) .redis .ret >>= fun up : Bool => runIf up do
      let _ ← updateMany u
      Prog.commit (.ret ())).Along (GuessLaw limits r) h fun _ h' => Calm limits h' := by
  have hclear : ∀ up hit c, owing limits c (.update u hit :: .call .redis up :: h) = false :=
    fun up hit c => by simpa [owing, missed_cons, checked] using howing c
  refine along_invoke (fun _ => nofun) fun up => along_runIf.2 ⟨fun _ => ?_, fun _ => ?_⟩
  · refine Lenient.issue (fun hit => ⟨fun _ => htx, by simp [htx]⟩) fun hit => ⟨fun _ c => ?_, ?_⟩
    · constructor
      · simp [hclear up hit c]
      · intro hmem
        cases hit with
        | false => simp [htx] at hmem
        | true => simp [htx, (hu c).symm] at hmem
    · exact ⟨by simp, fun c => rfl⟩
  · exact ⟨by simp [htx], fun c => by simpa [owing, missed_cons, checked] using howing c⟩

theorem clear_along (hh : Stage limits current false h) {counter : Counter} :
    (clear counter).Along (GuessLaw limits r) h fun _ h' => Calm limits h' :=
  command_along nofun hh.tx hh.calm.clear

def Cleared (limits : Limits) (h : List Ev) : Prop :=
  Unfailing h → ∀ c, owing limits c h = false

theorem recordFailure_along (hh : Stage limits (some c) miss h) :
    (recordFailure c).Along (GuessLaw limits r) h fun _ h' => Cleared limits h' := by
  refine along_invoke (fun _ => nofun) fun up => along_runIf.2 ⟨?_, ?_⟩
  · rintro rfl
    refine Lenient.issue (fun hit => ⟨fun _ => hh.tx, by simp [hh.tx]⟩) fun hit => ?_
    refine along_ask (fun _ => nofun) fun s => along_seq.2 ⟨fun hup => ?_, ?_⟩
    · cases hit with
      | false => exact absurd (by simp) (hup.incr c)
      | true =>
          intro c'
          by_cases hc' : c' = c
          · subst hc'
            simpa [inFlight_cons, letThrough, endsTx] using hh.flight c' rfl hup.tail.tail.tail
          · have hnone := hh.others c' (by simp [Ne.symm hc'])
            simp [owing, inFlight_cons, letThrough, endsTx, hnone, hh.tx, hc']
    · exact along_runIf.2 ⟨fun _ => (command_along (by simp) rfl fun _ => rfl).mono
        fun _ _ hcalm _ => hcalm.clear, fun _ _ _ => rfl⟩
  · rintro rfl hup
    exact absurd List.mem_cons_self hup.up

/-! ### Requests -/

theorem failed_along {err : Err} (hh : Stage limits (some c) miss h) {Q : α → List Ev → Prop} :
    (recordFailure c >>= fun _ => Prog.throw err).Along (GuessLaw limits r) h Q :=
  along_seq.2 ((recordFailure_along hh).mono fun _ _ hcleared => hcleared)

theorem completeLogin_does {inTx : Bool} {userId : Id} {deviceId : Option String} :
    Does [.insertRefresh, .insertMobile, .revokeMobile]
      (AuthService.completeLogin inTx userId deviceId) :=
  does_completeLogin (by simp) (by simp) (by simp)

theorem login_along {inTx : Bool} {dto : LoginDto}
    (hr : r.guesses limits = some (limits.loginCounter dto.email)) :
    (AuthService.login limits inTx dto).Along (GuessLaw limits r) [] fun _ h => Calm limits h := by
  refine assertNotLocked_along stage_nil hr fun h hh => hh.ask (fun _ => rfl) fun found h hh => ?_
  refine hh.check hr (fun _ => rfl) fun valid h hh => ?_
  split
  · exact failed_along hh
  · next userId user heq =>
      obtain rfl : valid = true := (Bool.and_eq_true_iff.1 (Option.filter_eq_some_iff.1 heq).2).2
      refine along_seq.2 ((clear_along hh).mono fun _ h hcalm => ?_)
      split
      · exact (does_bind does_sign fun _ => does_ret).calm (K := []) nofun nofun nofun hcalm
      · exact completeLogin_does.calm (by simp) (by simp) (by simp) hcalm

theorem customerSession_does {customerId tenantId : Id} {deviceId : Option String} :
    Does [.insertRefresh, .insertMobile, .revokeMobile]
      (CustomersAuthService.issueTokenPair customerId tenantId >>= fun tokens =>
        mobileTokenFor .customer true customerId deviceId (some tenantId) none >>= fun mobile =>
          (.ret (tokens, mobile) : Prog accounts (TokenPair × Option Id))) :=
  does_bind (does_customerTokenPair (by simp)) fun _ =>
    does_bind (does_mobileTokenFor (by simp) (by simp)) fun _ => does_ret

theorem loginCustomer_along {tenantId : Id} {dto : LoginDto}
    (hr : r.guesses limits = some (limits.customerLoginCounter tenantId dto.email)) :
    (CustomersAuthService.login limits tenantId dto).Along (GuessLaw limits r) []
      fun _ h => Calm limits h := by
  refine assertNotLocked_along stage_nil hr fun h hh => hh.ask (fun _ => rfl) fun found h hh => ?_
  refine hh.check hr (fun _ => rfl) fun valid h hh => ?_
  split
  · exact failed_along hh
  · next customerId customer heq =>
      obtain rfl : valid = true := (Bool.and_eq_true_iff.1 (Option.filter_eq_some_iff.1 heq).2).2
      refine along_seq.2 ((clear_along hh).mono fun _ h hcalm => ?_)
      exact customerSession_does.calm (by simp) (by simp) (by simp) hcalm

theorem verifyTwoFactor_along {inTx : Bool} {challengeToken : RawToken} {code : String}
    {deviceId : Option String}
    (hr : ∀ jwt, challengeToken = .signed jwt → ∀ userId,
      AuthService.challenged jwt.payload = some userId →
        r.guesses limits = some (.twoFactor userId)) :
    (AuthService.verifyTwoFactor limits inTx challengeToken code deviceId).Along
      (GuessLaw limits r) [] fun _ h => Calm limits h := by
  refine along_seq.2 (stage_nil.invoke (fun _ => rfl) fun time h hh => ?_)
  refine along_orThrow.2 ⟨fun _ _ => hh.calm.clear, fun jwt hjwt => hh.demand fun userId huser => ?_⟩
  have hguesses := hr jwt (signed_of_verified hjwt) userId huser
  refine assertNotLocked_along hh hguesses fun h hh => hh.ask (fun _ => rfl) fun user h hh => ?_
  refine hh.demand fun totpSecret _ => hh.check hguesses (fun _ => rfl) fun valid h hh => ?_
  cases valid with
  | true =>
      refine along_seq.2 ((clear_along hh).mono fun _ h hcalm => ?_)
      exact completeLogin_does.calm (by simp) (by simp) (by simp) hcalm
  | false => exact failed_along hh

theorem changed_does {inTx : Bool} {u : Update} {userId : Id} {keep : Option RawToken}
    (hu : u.kind = .plain) : Does [.revokeRefresh, .revokeMobile]
      (write inTx u .recordNotFound >>= fun _ =>
        AuthService.revokeOtherSessions inTx userId keep) :=
  does_bind (does_write (.inl hu)) fun _ => does_revokeOtherSessions (by simp) (by simp)

theorem enableTwoFactor_along {inTx : Bool} {userId : Id} {code : String} {keep : Option RawToken}
    (hr : r.guesses limits = some (.twoFactorManage userId)) :
    (AuthService.enableTwoFactor limits inTx userId code keep).Along (GuessLaw limits r) []
      fun _ h => Calm limits h := by
  refine assertNotLocked_along stage_nil hr fun h hh => ?_
  refine along_seq.2 (hh.ask (fun _ => rfl) fun found h hh => ?_)
  refine along_orThrow.2 ⟨fun _ _ => hh.calm.clear, fun user _ => hh.demand fun totpSecret _ => ?_⟩
  refine hh.check hr (fun _ => rfl) fun valid h hh => ?_
  cases valid with
  | true =>
      refine along_seq.2 ((clear_along hh).mono fun _ h hcalm => ?_)
      exact (changed_does rfl).calm (by simp) (by simp) (by simp) hcalm
  | false => exact failed_along hh

theorem disableTwoFactor_along {inTx : Bool} {userId : Id} {code : String}
    {keep : Option RawToken} (hr : r.guesses limits = some (.twoFactorManage userId)) :
    (AuthService.disableTwoFactor limits inTx userId code keep).Along (GuessLaw limits r) []
      fun _ h => Calm limits h := by
  refine assertNotLocked_along stage_nil hr fun h hh => ?_
  refine along_seq.2 (hh.ask (fun _ => rfl) fun found h hh => ?_)
  refine along_orThrow.2 ⟨fun _ _ => hh.calm.clear, fun user _ => along_seq.2 ?_⟩
  have hrest : ∀ h, Stage limits (some (.twoFactorManage userId)) false h →
      (clear (.twoFactorManage userId) >>= fun _ => write inTx (.disableTwoFactor userId)
        .recordNotFound >>= fun _ => AuthService.revokeOtherSessions inTx userId keep).Along
        (GuessLaw limits r) h fun _ h => Calm limits h := fun h hh =>
    along_seq.2 ((clear_along hh).mono fun _ h hcalm =>
      (changed_does rfl).calm (by simp) (by simp) (by simp) hcalm)
  refine along_runIf.2 ⟨fun _ => ?_, fun _ => hrest h hh⟩
  cases user.totpSecret with
  | none => exact failed_along hh
  | some totpSecret =>
      refine hh.check hr (fun _ => rfl) fun valid h hh => along_runIf.2 ⟨fun _ => ?_, fun hv => ?_⟩
      · exact failed_along hh
      · obtain rfl : valid = true := by simpa using hv
        exact hrest h hh

theorem follows_of_calm {p : Prog accounts Unit}
    (hp : p.Along (GuessLaw limits r) [] fun _ h => Calm limits h) : p.Follows (GuessLaw limits r) :=
  hp.mono fun _ h hh =>
    (hh.step (e := .returned (openTx h)) (by simp [kind]) (by simp [kind]) (by simp [kind])).1

theorem follows_of_does {p : Prog accounts Unit} (hp : Does K p)
    (hks : .count ∉ K ∧ .guess ∉ K ∧ .undo ∉ K) : p.Follows (GuessLaw limits r) :=
  follows_of_calm (hp.calm hks.1 hks.2.1 hks.2.2 calm_nil)

theorem handler_guesses (limits : Limits) (r : Request) :
    (handler limits r).Follows (GuessLaw limits r) := by
  cases hr : r with
  | login inTx dto => exact follows_of_calm (along_seq.2 (login_along rfl))
  | verifyTwoFactor inTx token code deviceId =>
      refine follows_of_calm (along_seq.2 (verifyTwoFactor_along ?_))
      rintro jwt rfl userId huser
      simp [Request.guesses, huser]
  | enableTwoFactor inTx userId code keep => exact follows_of_calm (enableTwoFactor_along rfl)
  | disableTwoFactor inTx userId code keep => exact follows_of_calm (disableTwoFactor_along rfl)
  | loginCustomer tenantId dto => exact follows_of_calm (along_seq.2 (loginCustomer_along rfl))
  | windowExpires counter =>
      intro hit
      refine ⟨⟨fun _ => rfl, by simp⟩, fun hup c => ⟨nofun, fun hmem => ?_⟩⟩
      cases hit <;> simp at hmem
  | _ => exact follows_of_does (handler_does limits _) (by simp [Request.kinds])

end WhatStore.Accounts
