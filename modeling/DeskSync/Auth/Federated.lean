import DeskSync.Auth.Rotation

/-!
# Federated sign-in and the linked account

`UpsertOAuthUser` looks the identity up, and if it is unknown finds or creates a user by the email and links
the identity to it. The insert keeps a row that is already there and says nothing of it, so of two first
sign-ins of one identity with different emails the second one links nothing, and returns tokens for a user
the identity does not belong to (`two_first_signIns`).

`linked_of_uncontested`: in the runs in which no identity is linked that another request has linked to
somebody else meanwhile, tokens returned for an identity are always for the user it is linked to.
-/

namespace DeskSync.Auth

open Backend Elements Proc

/-- The user an identity is linked to. -/
def linkedUser (db : AuthDb) (p : Provider) (providerUserID : String) : Option String :=
  (db.oauthIdentities.find? fun oi => oi.provider == p && oi.providerUserID == providerUserID).map (·.userID)

/-- A request has returned tokens for the identity. -/
def SignedIn (w : World) (i : ℕ) (p : Provider) (providerUserID : String) (tokens : Tokens) : Prop :=
  ∃ email displayName md, w.threads[i]? =
    some ⟨.upsertOAuthUser p providerUserID email displayName md, .ret (.tokens (.ok tokens))⟩

structure ReturnsLinked (w : World) : Prop where
  linked : ∀ i p providerUserID tokens, SignedIn w i p providerUserID tokens →
    linkedUser w.store p providerUserID = some tokens.user.id
  same : ∀ i j p providerUserID tokens tokens', SignedIn w i p providerUserID tokens →
    SignedIn w j p providerUserID tokens' → tokens.user.id = tokens'.user.id

/-- An insert that goes through finds the identity linked to nobody else. -/
def uncontested (w : World) : Step → Bool
  | .advance i e =>
    match w.threads[i]? with
    | some ⟨_, .call (.linkOAuthIdentity id) _⟩ =>
      e.fault != .none || (linkedUser w.store id.provider id.providerUserID).all (· == id.userID)
    | _ => true
  | _ => true

/-! ### What the calls do to the links -/

variable {db : AuthDb} {p : Provider} {providerUserID : String}

/-- Whatever is called, an identity stays with its user. -/
theorem linkedUser_effect {citext : Citext} {e : Env} {userID : String}
    (h : linkedUser db p providerUserID = some userID) (c : Cmd) :
    linkedUser (c.effect citext e db).2 p providerUserID = some userID := by
  cases c with
  | linkOAuthIdentity id =>
    simp only [Cmd.effect, UserRepo.linkOAuthIdentity]
    split_ifs
    · exact h
    · obtain ⟨oi, hoi, rfl⟩ := Option.map_eq_some_iff.1 h
      rw [linkedUser, List.find?_append, hoi]
      rfl
    · exact h
  | createUser u =>
    simp only [Cmd.effect, UserRepo.createUser]
    split <;> exact h
  | create t =>
    simp only [Cmd.effect, RefreshRepo.create]
    split <;> exact h
  | getByID jti =>
    simp only [Cmd.effect, RefreshRepo.getByID]
    split <;> exact h
  | revoke jti replacedBy =>
    simp only [Cmd.effect, RefreshRepo.revoke]
    split_ifs <;> exact h
  | _ => exact h

theorem linkedUser_exec {citext : Citext} {e : Env} {userID : String}
    (h : linkedUser db p providerUserID = some userID) (c : Cmd) :
    linkedUser (exec citext e c db).2 p providerUserID = some userID :=
  Fault.apply_invariant (I := fun db => linkedUser db p providerUserID = some userID) h
    (linkedUser_effect h c)

/-- A lookup by identity finds the linked user. -/
theorem getByProviderIdentity_ok {citext : Citext} {e : Env} {u : User}
    (h : (exec citext e (.getByProviderIdentity p providerUserID) db).1.1 = .ok u) :
    linkedUser db p providerUserID = some u.id := by
  have hscan : UserRepo.identityUser p providerUserID db = some u := scanUser_ok (exec_ok h).2
  obtain ⟨oi, hoi, hu⟩ := Option.bind_eq_some_iff.1 hscan
  have hid : u.id = oi.userID := by simpa using List.find?_some hu
  rw [linkedUser, hoi, hid]
  rfl

/-- An insert that succeeds leaves the identity linked, to the user given if it was not before. -/
theorem linkOAuthIdentity_ok {citext : Citext} {e : Env} {id : OAuthIdentity}
    (h : (exec citext e (.linkOAuthIdentity id) db).1.1 = .ok ())
    (hfree : (linkedUser db id.provider id.providerUserID).all (· == id.userID) = true) :
    linkedUser (exec citext e (.linkOAuthIdentity id) db).2 id.provider id.providerUserID =
      some id.userID := by
  obtain ⟨hf, heffect⟩ := exec_ok h
  rw [exec_store hf]
  cases hlinked : linkedUser db id.provider id.providerUserID with
  | some userID =>
    rw [hlinked, Option.all_some, beq_iff_eq] at hfree
    exact hfree ▸ linkedUser_effect hlinked _
  | none =>
    have hnone := Option.map_eq_none_iff.1 hlinked
    simp only [Cmd.effect, UserRepo.linkOAuthIdentity] at heffect ⊢
    split_ifs at heffect ⊢ with hany huser
    · obtain ⟨oi, hoi, heq⟩ := List.any_eq_true.1 hany
      exact absurd heq (List.find?_eq_none.1 hnone oi hoi)
    · rw [linkedUser, List.find?_append, hnone]
      simp

/-! ### The handler -/

inductive SignIn
  /-- The user is not known yet. -/
  | open (p : Provider) (providerUserID : String)
  | linked (p : Provider) (providerUserID userID : String)
  /-- Some other request. -/
  | other

namespace SignIn

inductive Next : SignIn → (c : Cmd) → Reply c → SignIn → Prop
  | finds (p providerUserID u here) :
      Next (.open p providerUserID) (.getByProviderIdentity p providerUserID) (.ok u, here)
        (.linked p providerUserID u.id)
  | links (p providerUserID userID here) :
      Next (.open p providerUserID) (.linkOAuthIdentity ⟨userID, p, providerUserID⟩) (.ok (), here)
        (.linked p providerUserID userID)
  | stays (x c r) : Next x c r x

/-- Tokens are returned for the linked user. -/
def Fin : SignIn → Response → Prop
  | .open .., r => ∀ tokens, r ≠ .tokens (.ok tokens)
  | .linked _ _ userID, r => ∀ tokens, r = .tokens (.ok tokens) → tokens.user.id = userID
  | .other, _ => True

abbrev Follows (x : SignIn) (p : Handler Response) : Prop := p.Conforms (fun _ _ => True) Next Fin x

end SignIn

/-- Where a request starts. -/
def Request.signIn : Request → SignIn
  | .upsertOAuthUser p providerUserID _ _ _ => .open p providerUserID
  | _ => .other

section Handler
variable (s : Service)

theorem follows_issueTokens (here : Here) (user : User) (md : Metadata) (p : Provider)
    (providerUserID : String) :
    SignIn.Follows (.linked p providerUserID user.id) (.tokens <$> s.issueTokens here user md) := by
  have hminted : (s.mint here user md).Post (fun _ _ => True) fun result =>
      ∀ tokens jti, result = .ok (tokens, jti) → tokens.user = user := s.mint_user here user md
  have hissued : (s.issueTokens here user md).Post (fun _ _ => True) fun result =>
      ∀ tokens, result = .ok tokens → tokens.user = user := by
    refine hminted.map ?_
    rintro (e | ⟨tokens, jti⟩) hresult tokens' heq
    · cases heq
    · cases heq
      exact hresult tokens jti rfl
  have hfin : (Response.tokens <$> s.issueTokens here user md).Post (fun _ _ => True)
      (SignIn.Fin (.linked p providerUserID user.id)) := by
    refine hissued.map fun result hresult tokens heq => ?_
    cases heq
    rw [hresult tokens rfl]
  exact hfin.conforms (fun c r => .stays _ c r) fun _ h => h

theorem follows_linkAndIssue (user : User) (md : Metadata) (p : Provider) (providerUserID : String) :
    SignIn.Follows (.open p providerUserID) (.tokens <$> s.linkAndIssue p providerUserID user md) := by
  rintro ⟨_ | _, here⟩ -
  · exact ⟨_, .stays _ _ _, fun tokens heq => by cases heq⟩
  · exact ⟨_, .links p providerUserID user.id here, follows_issueTokens s here user md p providerUserID⟩

theorem follows_upsertOAuthUser (p : Provider) (providerUserID email displayName : String)
    (md : Metadata) : SignIn.Follows (.open p providerUserID)
      (.tokens <$> s.upsertOAuthUser p providerUserID email displayName md) := by
  have hfails (code : Code) (message : String) : SignIn.Follows (.open p providerUserID)
      (.tokens <$> (return err code message : Handler (Except AppError Tokens))) :=
    fun tokens heq => by cases heq
  rintro ⟨e | user, here⟩ -
  · refine ⟨_, .stays _ _ _, ?_⟩
    cases e with
    | userNotFound =>
      rintro ⟨e | user, here'⟩ -
      · refine ⟨_, .stays _ _ _, ?_⟩
        cases e with
        | userNotFound =>
          rintro ⟨_ | user, here''⟩ -
          · exact ⟨_, .stays _ _ _, hfails _ _⟩
          · exact ⟨_, .stays _ _ _, follows_linkAndIssue s user md p providerUserID⟩
        | _ => exact hfails _ _
      · exact ⟨_, .stays _ _ _, follows_linkAndIssue s user md p providerUserID⟩
    | _ => exact hfails _ _
  · exact ⟨_, .finds p providerUserID user here, follows_issueTokens s here user md p providerUserID⟩

theorem follows_signIn (here : Here) (q : Request) : SignIn.Follows q.signIn (q.start s here) := by
  have hother (p : Handler Response) : SignIn.Follows .other p :=
    (Prog.post_true p).conforms (fun c r => .stays _ c r) fun _ _ => trivial
  cases q with
  | upsertOAuthUser p providerUserID email displayName md =>
    exact follows_upsertOAuthUser s p providerUserID email displayName md
  | _ => exact hother _

end Handler

/-! ### Runs -/

/-- Requests that know their user know the one their identity is linked to. -/
structure Known (X : ℕ → SignIn) (w : World) : Prop where
  conform : w.Conform (fun _ _ => True) SignIn.Next SignIn.Fin X
  fits : ∀ i p providerUserID email displayName md prog, w.threads[i]? =
    some ⟨.upsertOAuthUser p providerUserID email displayName md, prog⟩ →
      X i = .open p providerUserID ∨ ∃ userID, X i = .linked p providerUserID userID
  linked : ∀ i p providerUserID userID, X i = .linked p providerUserID userID →
    linkedUser w.store p providerUserID = some userID

theorem Known.returns {X : ℕ → SignIn} {w : World} (h : Known X w) : ReturnsLinked w := by
  have hlinked (i : ℕ) (p : Provider) (providerUserID : String) (tokens : Tokens)
      (hi : SignedIn w i p providerUserID tokens) :
      linkedUser w.store p providerUserID = some tokens.user.id := by
    obtain ⟨email, displayName, md, hi⟩ := hi
    have hfin := h.conform i _ _ hi
    rw [Prog.conforms_ret] at hfin
    rcases h.fits i p providerUserID email displayName md _ hi with hX | ⟨userID, hX⟩
    · rw [hX] at hfin
      exact absurd rfl (hfin tokens)
    · have hid : tokens.user.id = userID := by
        rw [hX] at hfin
        exact hfin tokens rfl
      rw [hid]
      exact h.linked i p providerUserID userID hX
  refine ⟨hlinked, fun i j p providerUserID tokens tokens' hi hj => ?_⟩
  exact Option.some.inj ((hlinked i p providerUserID tokens hi).symm.trans
    (hlinked j p providerUserID tokens' hj))

/-- Where a call leaves a request whose user was unknown, or known. -/
theorem SignIn.Next.fits {x x' : SignIn} {c : Cmd} {r : Reply c} {p : Provider} {providerUserID : String}
    (h : SignIn.Next x c r x')
    (hx : x = .open p providerUserID ∨ ∃ userID, x = .linked p providerUserID userID) :
    x' = .open p providerUserID ∨ ∃ userID, x' = .linked p providerUserID userID := by
  cases h with
  | finds p' providerUserID' u here =>
    rcases hx with heq | ⟨userID, heq⟩
    · cases heq
      exact .inr ⟨u.id, rfl⟩
    · cases heq
  | links p' providerUserID' userID' here =>
    rcases hx with heq | ⟨userID, heq⟩
    · cases heq
      exact .inr ⟨userID', rfl⟩
    · cases heq
  | stays => exact hx

/-- A request that knows its user after a call knows the linked one. -/
theorem SignIn.Next.linked {s : Service} {x x' : SignIn} {e : Env} {c : Cmd} {r : Reply c} {db : AuthDb}
    {p : Provider} {providerUserID userID : String} (h : SignIn.Next x c r x')
    (hr : r = (exec s.citext e c db).1) (hx' : x' = .linked p providerUserID userID)
    (hx : x = .linked p providerUserID userID → linkedUser db p providerUserID = some userID)
    (hfree : ∀ id, c = .linkOAuthIdentity id → e.fault = .none →
      (linkedUser db id.provider id.providerUserID).all (· == id.userID) = true) :
    linkedUser (exec s.citext e c db).2 p providerUserID = some userID := by
  cases h with
  | finds p' providerUserID' u here =>
    cases hx'
    exact linkedUser_exec (getByProviderIdentity_ok (congrArg Prod.fst hr).symm) _
  | links p' providerUserID' userID' here =>
    cases hx'
    have hok := (congrArg Prod.fst hr).symm
    exact linkOAuthIdentity_ok hok (hfree _ rfl (exec_ok hok).1)
  | stays => exact linkedUser_exec (hx hx') _

theorem Known.step {s : Service} {X : ℕ → SignIn} {w : World} (h : Known X w) (l : Step)
    (hfree : uncontested w l = true) : ∃ X', Known X' ((system s).step w l) := by
  rcases (system s).conform_cases h.conform (fun q e => follows_signIn s e.here q) (fun _ _ => trivial) l
    with ⟨i, e, -, -, hw⟩ | ⟨q, e, rfl, hw, hconf⟩ | ⟨i, e, q, c, k, x', rfl, hi, hw, hnext, hconf⟩ |
      ⟨⟨userID⟩, rfl, hw, hconf⟩
  · rw [hw]
    exact ⟨X, h⟩
  · refine ⟨_, hconf, fun i p providerUserID email displayName md prog hi => ?_,
      fun i p providerUserID userID hX => ?_⟩
    · rcases (system s).thread_cases hi with hi | ⟨q', e', heq, rfl, ht⟩ | ⟨e', q', c, k, heq, -, -⟩
      · have hlt := (List.getElem?_eq_some_iff.1 hi).1
        rw [Function.update_of_ne (Nat.ne_of_lt hlt)]
        exact h.fits i p providerUserID email displayName md prog hi
      · cases heq
        cases ht
        rw [Function.update_self]
        exact .inl rfl
      · cases heq
    · rw [hw]
      by_cases hlen : i = w.threads.length
      · rw [hlen, Function.update_self] at hX
        cases q <;> cases hX
      · rw [Function.update_of_ne hlen] at hX
        exact h.linked i p providerUserID userID hX
  · refine ⟨_, hconf, fun j p providerUserID email displayName md prog hj => ?_,
      fun j p providerUserID userID hX => ?_⟩
    · rw [hw] at hj
      rcases set_cases hj with ⟨rfl, heq⟩ | ⟨hij, hj⟩
      · cases heq
        rw [Function.update_self]
        exact hnext.fits (h.fits i p providerUserID email displayName md _ hi)
      · rw [Function.update_of_ne (Ne.symm hij)]
        exact h.fits j p providerUserID email displayName md prog hj
    · rw [hw]
      by_cases hji : j = i
      · subst hji
        rw [Function.update_self] at hX
        refine hnext.linked rfl hX (h.linked j p providerUserID userID) fun id hc hf => ?_
        subst hc
        simpa [uncontested, hi, hf] using hfree
      · rw [Function.update_of_ne hji] at hX
        exact linkedUser_exec (h.linked j p providerUserID userID hX) c
  · refine ⟨X, hconf, fun i p providerUserID email displayName md prog hi => ?_,
      fun i p providerUserID userID hX => ?_⟩
    · rw [hw] at hi
      exact h.fits i p providerUserID email displayName md prog hi
    · rw [hw]
      exact h.linked i p providerUserID userID hX

/-- In every run in which each insert of a link that goes through finds the identity linked to nobody else,
a request returns tokens for the user its identity is linked to at that moment, and two requests for one
identity return the same user. -/
theorem linked_of_uncontested (s : Service) (db : AuthDb) (l : List Step)
    (h : Run.Guarded (system s).step (fun w l => uncontested w l = true) ⟨db, []⟩ l) :
    Run.Always (system s).step ReturnsLinked ⟨db, []⟩ l := by
  have hstart : ∃ X, Known X (⟨db, []⟩ : World) := by
    refine ⟨fun _ => .other, fun i q p hi => ?_, fun i _ _ _ _ _ _ hi => ?_, fun _ _ _ _ hX => ?_⟩
    · cases hi
    · cases hi
    · cases hX
  exact (h.always (I := fun w => ∃ X, Known X w) (fun w l ⟨X, hX⟩ hfree => hX.step l hfree) hstart).mono
    fun w ⟨X, hX⟩ => hX.returns

/-! ### Two first sign-ins -/

/-- A call that goes through and would generate the id `id`. -/
def generates (id : String) : Env := { goes id with genUUID := id }

def signIn (email : String) : Step :=
  .spawn (.upsertOAuthUser .google "42" email "A" ⟨"", ""⟩) (goes "")

/-- Two sign-ins of one identity, each of which looks it up before the other has linked it. -/
def concurrentSignIns : List Step :=
  [signIn "a@b.cd", signIn "x@y.zw", .advance 0 (goes ""), .advance 1 (goes ""), .advance 0 (goes ""),
    .advance 0 (generates "u1"), .advance 1 (goes ""), .advance 1 (generates "u2"),
    .advance 0 (goes "t1"), .advance 1 (goes "t2"), .advance 0 (goes ""), .advance 1 (goes "")]

/-- One after the other. -/
def sequentialSignIns : List Step :=
  [signIn "a@b.cd", .advance 0 (goes ""), .advance 0 (goes ""), .advance 0 (generates "u1"),
    .advance 0 (goes "t1"), .advance 0 (goes ""), signIn "x@y.zw", .advance 1 (goes "t2"),
    .advance 1 (goes "")]

set_option maxRecDepth 4000 in
theorem sequential_signIns :
    Run.Always (system sampleService).step ReturnsLinked ⟨emptyDb, []⟩ sequentialSignIns :=
  linked_of_uncontested sampleService emptyDb sequentialSignIns (by decide)

set_option maxRecDepth 4000 in
/-- The second sign-in returns tokens for a user of its own, and the identity is linked to the first. -/
theorem two_first_signIns : ¬∀ (s : Service) (db : AuthDb) (l : List Step),
    Run.Always (system s).step ReturnsLinked ⟨db, []⟩ l := by
  intro h
  have hlast := (h sampleService emptyDb concurrentSignIns).last
  have hid := hlast.linked 1 .google "42" _ ⟨"x@y.zw", "A", ⟨"", ""⟩, rfl⟩
  exact absurd hid (by decide)

end DeskSync.Auth
