import DeskSync.Agent.Delivery

/-!
# What a handshake binds

A frame opens at a fresh channel only if the two channels were built from the same handshake, in opposite
roles (`opens_iff`). `Logged` and `Accepted` say where everything in the log and in a history comes from,
for any number of channels: every encryption is one of a channel, under its key, and every accepted frame
carries one. X25519 is a parameter like HKDF and the cipher.
-/

namespace DeskSync.Agent

/-! ### X25519 -/

structure X25519 where
  publicKey : (secret : Key) → Key
  diffieHellman : (secret peer : Key) → Key

def X25519.Commutes (x : X25519) : Prop :=
  ∀ a b, x.diffieHellman a (x.publicKey b) = x.diffieHellman b (x.publicKey a)

def x25519Ecdh (x : X25519) (localSecret peerPublic : Key) : Key := x.diffieHellman localSecret peerPublic

/-- `str::as_bytes`. -/
def asBytes (s : String) : Bytes := s.toByteArray.data.toList

theorem asBytes_injective : Function.Injective asBytes := fun _ _ h =>
  String.toByteArray_inj.1 (ByteArray.ext (Array.toList_inj.1 h))

/-- Build a channel by performing X25519 ECDH with the peer's public key. -/
def SecureChannel.establish (x : X25519) (hkdf : Hkdf) (localSecret peerPublic : Key) (sessionID : String)
    (controllerPub agentPub : Key) (role : Role) : SecureChannel :=
  let shared := x25519Ecdh x localSecret peerPublic
  .new hkdf ⟨shared, asBytes sessionID, controllerPub, agentPub⟩ role

/-- A fresh channel receives under what the other end sends under. -/
theorem SecureChannel.new_other (hkdf : Hkdf) (h : Handshake) (r : Role) :
    (new hkdf h r).recvKey = (new hkdf h r.other).sendKey ∧
      (new hkdf h r).recvDir = (new hkdf h r.other).sendDir ∧
      (new hkdf h r).sessionID = (new hkdf h r.other).sessionID ∧ (new hkdf h r).recvLast = none := by
  cases r <;> exact ⟨rfl, rfl, rfl, rfl⟩

/-! ### Where encryptions and frames come from -/

/-- The encryption of `x.2` under the counter `x.1` by the channel at index `k`: it took place, and gave
a frame unless the counter was exhausted. -/
structure Encrypted (A : Aead Key) (s : SecureChannel) (k : ℕ) (t : Traced) (n : UInt64)
    (plaintext ct : Bytes) : Prop where
  logged : entry s (n, plaintext) ∈ t.1.log
  encrypts : A.encrypt s.sendKey (nonceFor n) (aadFor s.sessionID s.sendDir) plaintext = some ct
  sealed : n = u64Max ∨ (plaintext, toBeBytes n ++ ct) ∈ t.2.filterMap (sealedBy k)

/-- The frame `y.1` has the counter and the ciphertext of an encryption of `y.2` in the log. -/
def Carries (A : Aead Key) (s : SecureChannel) (log : Log) (y : Bytes × Bytes) : Prop :=
  entry s (counterOf y.1, y.2) ∈ log ∧
    A.encrypt s.sendKey (nonceFor (counterOf y.1)) (aadFor s.sessionID s.sendDir) y.2 =
      some (y.1.drop counterLen)

/-- Every encryption and every sealed frame is one of a channel. -/
structure Logged (A : Aead Key) (hkdf : Hkdf) (setup : List (Handshake × Role)) (t : Traced) : Prop where
  logged : ∀ e ∈ t.1.log, ∃ k h r n ct, setup[k]? = some (h, r) ∧
    e = entry (.new hkdf h r) (n, e.msg) ∧ Encrypted A (.new hkdf h r) k t n e.msg ct
  sealed : ∀ k, ∀ x ∈ t.2.filterMap (sealedBy k), ∃ h r n ct, setup[k]? = some (h, r) ∧
    n ≠ u64Max ∧ x.2 = toBeBytes n ++ ct ∧ Encrypted A (.new hkdf h r) k t n x.1 ct

/-- Every accepted frame carries an encryption of the other end. -/
def Accepted (A : Aead Key) (hkdf : Hkdf) (setup : List (Handshake × Role)) (t : Traced) : Prop :=
  ∀ k, ∀ y ∈ t.2.filterMap (acceptedBy k), ∃ h r, setup[k]? = some (h, r) ∧
    Carries A (.new hkdf h r.other) t.1.log y

variable {A : Aead Key} {hkdf : Hkdf} {setup : List (Handshake × Role)}

theorem Encrypted.mono {s : SecureChannel} {k : ℕ} {w w' : World} {evs evs' : List Event} {n : UInt64}
    {plaintext ct : Bytes} {es : Log} (h : Encrypted A s k (w, evs) n plaintext ct)
    (hlog : w'.log = w.log ++ es) : Encrypted A s k (w', evs ++ evs') n plaintext ct where
  logged := by
    dsimp only
    rw [hlog]
    exact List.mem_append_left _ h.logged
  encrypts := h.encrypts
  sealed := h.sealed.imp_right fun hmem => by
    rw [List.filterMap_append]
    exact List.mem_append_left _ hmem

/-- What a step adds to the log and to the history has to come from a channel. -/
theorem Logged.extend {w w' : World} {evs evs' : List Event} {es : Log}
    (hg : Logged A hkdf setup (w, evs)) (hlog : w'.log = w.log ++ es)
    (hlogged : ∀ e ∈ es, ∃ k h r n ct, setup[k]? = some (h, r) ∧ e = entry (.new hkdf h r) (n, e.msg) ∧
      Encrypted A (.new hkdf h r) k (w', evs ++ evs') n e.msg ct)
    (hsealed : ∀ k, ∀ x ∈ evs'.filterMap (sealedBy k), ∃ h r n ct, setup[k]? = some (h, r) ∧
      n ≠ u64Max ∧ x.2 = toBeBytes n ++ ct ∧
        Encrypted A (.new hkdf h r) k (w', evs ++ evs') n x.1 ct) :
    Logged A hkdf setup (w', evs ++ evs') where
  logged e he := by
    dsimp only at he
    rw [hlog] at he
    obtain he | he := List.mem_append.1 he
    · obtain ⟨k, h, r, n, ct, hset, heq, henc⟩ := hg.logged e he
      exact ⟨k, h, r, n, ct, hset, heq, henc.mono hlog⟩
    · exact hlogged e he
  sealed k x hx := by
    dsimp only at hx
    rw [List.filterMap_append] at hx
    obtain hx | hx := List.mem_append.1 hx
    · obtain ⟨h, r, n, ct, hset, hne, hframe, henc⟩ := hg.sealed k x hx
      exact ⟨h, r, n, ct, hset, hne, hframe, henc.mono hlog⟩
    · exact hsealed k x hx

/-- A call that logs nothing and returns no frame. -/
theorem Logged.quiet {w w' : World} {evs evs' : List Event} (hg : Logged A hkdf setup (w, evs))
    (hlog : w'.log = w.log) (hsealed : ∀ k, evs'.filterMap (sealedBy k) = []) :
    Logged A hkdf setup (w', evs ++ evs') := by
  refine hg.extend (hlog.trans (List.append_nil _).symm) ?_ ?_
  · rintro e ⟨⟩
  · intro k x hx
    rw [hsealed] at hx
    cases hx

theorem logged_seal {w : World} {evs : List Event} {k : ℕ} {ch : SecureChannel} {plaintext : Bytes}
    (hb : Built hkdf setup w) (hg : Logged A hkdf setup (w, evs)) (hk : w.chans[k]? = some ch) :
    Logged A hkdf setup (⟨w.chans.set k (ch.seal A plaintext w.log).2.1, (ch.seal A plaintext w.log).2.2⟩,
      evs ++ [.sealed k plaintext (ch.seal A plaintext w.log).1]) := by
  obtain ⟨h, r, hset, hfresh⟩ := hb.get hk
  have hentry : ch.sealing plaintext = entry (.new hkdf h r) (ch.sendCounter, plaintext) := by
    rw [← hfresh]
    rfl
  -- the encryption is logged, and it gives a frame unless the counter is exhausted
  have hencrypted {ct : Bytes} {t : Traced} (hlog : t.1.log = w.log ++ [ch.sealing plaintext])
      (henc : A.encrypt ch.sendKey (nonceFor ch.sendCounter) (aadFor ch.sessionID ch.sendDir) plaintext =
        some ct)
      (hframe : ch.sendCounter = u64Max ∨
        (plaintext, toBeBytes ch.sendCounter ++ ct) ∈ t.2.filterMap (sealedBy k)) :
      Encrypted A (.new hkdf h r) k t ch.sendCounter plaintext ct := by
    refine ⟨?_, ?_, hframe⟩
    · rw [hlog, ← hentry]
      exact List.mem_append_right _ (List.mem_singleton_self _)
    · rw [← hfresh]
      exact henc
  rcases ch.seal_cases A plaintext w.log with hs | ⟨ct, henc, ⟨hmax, hs⟩ | ⟨next, hnext, hs⟩⟩
  · rw [hs]
    exact hg.quiet rfl fun _ => rfl
  · rw [hs]
    have hexhausted : ch.sendCounter = u64Max := by
      rw [u64Max, ← hmax, UInt64.ofNat_toNat]
    refine hg.extend rfl ?_ ?_
    · intro e he
      obtain rfl := List.mem_singleton.1 he
      exact ⟨k, h, r, ch.sendCounter, ct, hset, hentry, hencrypted rfl henc (.inl hexhausted)⟩
    · rintro k' x ⟨⟩
  · rw [hs]
    have hnot : ch.sendCounter ≠ u64Max := by
      intro heq
      have hmax : ch.sendCounter.toNat = 2 ^ 64 - 1 := congrArg UInt64.toNat heq
      have hlt := next.toNat_lt
      omega
    have hsealed : (plaintext, toBeBytes ch.sendCounter ++ ct) ∈
        (evs ++ [Event.sealed k plaintext (.ok (toBeBytes ch.sendCounter ++ ct))]).filterMap
          (sealedBy k) := by
      rw [List.filterMap_append]
      refine List.mem_append_right _ (List.mem_filterMap.2 ⟨_, List.mem_singleton_self _, ?_⟩)
      exact if_pos rfl
    refine hg.extend rfl ?_ ?_
    · intro e he
      obtain rfl := List.mem_singleton.1 he
      exact ⟨k, h, r, ch.sendCounter, ct, hset, hentry, hencrypted rfl henc (.inr hsealed)⟩
    · intro k' x hx
      obtain ⟨ev, hev, hx⟩ := List.mem_filterMap.1 hx
      obtain rfl := List.mem_singleton.1 hev
      obtain ⟨rfl, rfl⟩ := sealedBy_sealed (.inl rfl) hx
      exact ⟨h, r, ch.sendCounter, ct, hset, hnot, rfl, hencrypted rfl henc (.inr hsealed)⟩

theorem logged_step (t : Traced) (op : Op) (hb : Built hkdf setup t.1) (hg : Logged A hkdf setup t) :
    Logged A hkdf setup (Run.observe (step A) (event A) t op) := by
  obtain ⟨w, evs⟩ := t
  cases op with
  | sealMsg k plaintext =>
    cases hk : w.chans[k]? with
    | none => simpa [Run.observe, step, event, hk] using hg
    | some ch => simpa [Run.observe, step, event, hk] using logged_seal hb hg hk
  | openFrame k frame =>
    cases hk : w.chans[k]? with
    | none => simpa [Run.observe, step, event, hk] using hg
    | some ch =>
      rw [Run.observe]
      refine hg.quiet ?_ fun k' => ?_
      · simp only [step, hk]
      · simp only [event, hk]
        rfl

theorem logged_run (l : List Op) : Logged A hkdf setup (run A hkdf setup l) := by
  have hinit : Logged A hkdf setup (World.init hkdf setup, []) :=
    ⟨fun _ he => absurd he List.not_mem_nil, fun _ _ hx => absurd hx List.not_mem_nil⟩
  have h := Run.invariant (I := fun t : Traced => Built hkdf setup t.1 ∧ Logged A hkdf setup t)
    (fun t op ht => ⟨built_step t.1 op ht.1, logged_step t op ht.1 ht.2⟩)
    ⟨built_init hkdf setup, hinit⟩ l
  exact h.2

theorem log_step (w : World) (op : Op) : ∃ es, (step A w op).log = w.log ++ es := by
  rcases step_cases A w op with ⟨hs, -⟩ | ⟨_, ch, plaintext, _, _, _, -, -, -, hs, -⟩ | ⟨_, _, _, _, -, -, -, hs, -⟩
  · exact ⟨[], by rw [hs, List.append_nil]⟩
  · exact ⟨[ch.sealing plaintext], by rw [hs]⟩
  · exact ⟨[], by rw [hs, List.append_nil]⟩

theorem accepted_step (hA : A.Ideal tagLen) (t : Traced) (op : Op) (hb : Built hkdf setup t.1)
    (ha : Accepted A hkdf setup t) : Accepted A hkdf setup (Run.observe (step A) (event A) t op) := by
  obtain ⟨w, evs⟩ := t
  obtain ⟨es, hlog⟩ := log_step (A := A) w op
  have hcarries {s : SecureChannel} {y : Bytes × Bytes} (h : Carries A s w.log y) :
      Carries A s (step A w op).log y := by
    refine ⟨?_, h.2⟩
    rw [hlog]
    exact List.mem_append_left _ h.1
  intro k y hy
  simp only [Run.observe, filterMap_observed, List.mem_append, Option.mem_toList] at hy ⊢
  obtain hy | hy := hy
  · obtain ⟨h, r, hset, hmem⟩ := ha k y hy
    exact ⟨h, r, hset, hcarries hmem⟩
  · rcases step_cases A w op with ⟨-, hnone⟩ |
      ⟨_, _, _, _, _, _, -, -, -, -, hev, -⟩ | ⟨k', ch, frame, pt, hk, -, hdec, -, hev⟩
    · rw [(hnone k).2.2] at hy
      cases hy
    · rw [hev] at hy
      cases hy
    · rw [hev, Option.bind_some, acceptedBy, Option.ite_none_right_eq_some] at hy
      obtain ⟨rfl, hy⟩ := hy
      obtain rfl := Option.some.inj hy
      obtain ⟨h, r, hset, hfresh⟩ := hb.get hk
      obtain ⟨hkey, hdir, hsession, -⟩ := SecureChannel.new_other hkdf h r
      have hrecvKey : ch.recvKey = (SecureChannel.new hkdf h r.other).sendKey := by
        rw [← hkey, ← hfresh]
        rfl
      have haad : aadFor ch.sessionID ch.recvDir = aadFor (SecureChannel.new hkdf h r.other).sessionID
          (SecureChannel.new hkdf h r.other).sendDir := by
        rw [← hdir, ← hsession, ← hfresh]
        rfl
      rw [hrecvKey, haad] at hdec
      exact ⟨h, r, hset, hcarries (hA.decrypt_eq_some.1 hdec)⟩

theorem accepted_run (hA : A.Ideal tagLen) (l : List Op) : Accepted A hkdf setup (run A hkdf setup l) := by
  have hinit : Accepted A hkdf setup (World.init hkdf setup, []) := fun _ _ hy => absurd hy List.not_mem_nil
  have h := Run.invariant (I := fun t : Traced => Built hkdf setup t.1 ∧ Accepted A hkdf setup t)
    (fun t op ht => ⟨built_step t.1 op ht.1, accepted_step hA t op ht.1 ht.2⟩)
    ⟨built_init hkdf setup, hinit⟩ l
  exact h.2

/-! ### Binding -/

/-- A frame of a channel above the last one accepted opens at the other end, as the plaintext that was
sealed. -/
theorem Logged.opens (hA : A.Correct tagLen) {t : Traced} (hg : Logged A hkdf setup t) {k : ℕ}
    {h : Handshake} {r : Role} (hk : setup[k]? = some (h, r.other)) {ch : SecureChannel}
    (hfresh : ch.fresh = .new hkdf h r) {x : Bytes × Bytes} (hx : x ∈ t.2.filterMap (sealedBy k))
    (hlast : ∀ last ∈ ch.recvLast, last < counterOf x.2) : (ch.open A x.2 t.1.log).1 = .ok x.1 := by
  obtain ⟨h', r', n, ct, hset, -, hframe, henc⟩ := hg.sealed k x hx
  obtain ⟨rfl, rfl⟩ := Prod.mk.inj (Option.some.inj (hk.symm.trans hset))
  obtain ⟨hkey, hdir, hsession, -⟩ := SecureChannel.new_other hkdf h r
  have hrecv : ch.recvKey = (SecureChannel.new hkdf h r.other).sendKey ∧
      ch.recvDir = (SecureChannel.new hkdf h r.other).sendDir ∧
      ch.sessionID = (SecureChannel.new hkdf h r.other).sessionID := by
    rw [← hkey, ← hdir, ← hsession, ← hfresh]
    exact ⟨rfl, rfl, rfl⟩
  refine SecureChannel.open_ok ?_ hlast ?_
  · rw [hframe, List.length_append, length_toBeBytes, hA.length_encrypt henc.encrypts]
    omega
  · rw [hframe, counterOf_append, List.drop_left' (length_toBeBytes n), hrecv.1, hrecv.2.1, hrecv.2.2]
    exact hA.decrypt_encrypt henc.logged henc.encrypts

theorem SecureChannel.fresh_new (hkdf : Hkdf) (h : Handshake) (r : Role) :
    (new hkdf h r).fresh = .new hkdf h r := by
  cases r <;> rfl

/-- Whatever opens at a fresh channel, some channel is its other end. -/
theorem Logged.peer (hA : A.Ideal tagLen) {t : Traced} (hg : Logged A hkdf setup t) {h : Handshake}
    {r : Role} {hs : List Handshake} (hsep : Separates hkdf hs) (hh : h ∈ hs)
    (hsetup : ∀ s ∈ setup, s.1 ∈ hs) {frame pt : Bytes}
    (hopen : ((SecureChannel.new hkdf h r).open A frame t.1.log).1 = .ok pt) : (h, r.other) ∈ setup := by
  obtain ⟨hkey, -, -, -⟩ := SecureChannel.new_other hkdf h r
  rcases (SecureChannel.new hkdf h r).open_cases A frame t.1.log with ⟨e, ho⟩ | ⟨pt', -, -, hdec⟩
  · rw [ho] at hopen
    cases hopen
  · obtain ⟨hmem, -⟩ := hA.decrypt_eq_some.1 hdec
    obtain ⟨k, h', r', n, ct, hset, heq, -⟩ := hg.logged _ hmem
    have hkeys : (SecureChannel.new hkdf h r.other).sendKey = (SecureChannel.new hkdf h' r').sendKey := by
      rw [← hkey]
      exact congrArg Sealing.key heq
    have hmemSetup : (h', r') ∈ setup := List.mem_of_getElem? hset
    obtain ⟨rfl, rfl⟩ := SecureChannel.new_sendKey_inj hsep hh (hsetup _ hmemSetup) hkeys
    exact hmemSetup

theorem Role.other_ne (r : Role) : r.other ≠ r := by
  cases r <;> decide

/-- Among any channels, a frame sealed by `X` opens at a fresh `Y`, to which none of the others is the
other end, if and only if `X` is built from the handshake of `Y` in the opposite role. Two ends that
establish a channel with each other's public keys build it from one handshake. -/
theorem opens_iff (A : Aead Key) (hA : A.Ideal tagLen) (x : X25519) (hx : x.Commutes) (hkdf : Hkdf)
    (hX hY : Handshake) (rX rY : Role) (others : List (Handshake × Role))
    (hsep : Separates hkdf (hX :: hY :: others.map Prod.fst)) (hothers : (hY, rY.other) ∉ others)
    (l : List Op) :
    let t := run A hkdf ((hX, rX) :: (hY, rY) :: others) l
    (∀ plaintext frame, (plaintext, frame) ∈ t.2.filterMap (sealedBy 0) →
      ((∃ pt, ((SecureChannel.new hkdf hY rY).open A frame t.1.log).1 = .ok pt) ↔
        hX = hY ∧ rX = rY.other)) ∧
      ∀ (secret secret' : Key) (sessionID : String) (controllerPub agentPub : Key) (role : Role), ∃ h,
        SecureChannel.establish x hkdf secret (x.publicKey secret') sessionID controllerPub agentPub role =
            .new hkdf h role ∧
          SecureChannel.establish x hkdf secret' (x.publicKey secret) sessionID controllerPub agentPub
            role.other = .new hkdf h role.other := by
  intro t
  have hg : Logged A hkdf ((hX, rX) :: (hY, rY) :: others) t := logged_run l
  refine ⟨fun plaintext frame hmem => ⟨?_, ?_⟩, ?_⟩
  · rintro ⟨pt, hopen⟩
    have hsetup : ∀ s ∈ (hX, rX) :: (hY, rY) :: others, s.1 ∈ hX :: hY :: others.map Prod.fst := by
      intro s hs
      exact List.mem_map_of_mem hs
    have hpeer := hg.peer hA hsep (List.mem_cons_of_mem _ List.mem_cons_self) hsetup hopen
    rcases List.mem_cons.1 hpeer with heq | hpeer
    · obtain ⟨rfl, rfl⟩ := Prod.mk.inj heq
      exact ⟨rfl, rfl⟩
    · rcases List.mem_cons.1 hpeer with heq | hpeer
      · exact absurd (Prod.mk.inj heq).2 rY.other_ne
      · exact absurd hpeer hothers
  · rintro ⟨rfl, rfl⟩
    refine ⟨plaintext, hg.opens hA.correct rfl (SecureChannel.fresh_new hkdf hX rY) hmem ?_⟩
    rw [(SecureChannel.new_other hkdf hX rY).2.2.2]
    rintro last ⟨⟩
  · intro secret secret' sessionID controllerPub agentPub role
    refine ⟨_, rfl, ?_⟩
    simp only [SecureChannel.establish, x25519Ecdh, hx secret' secret]

/-! ### Two devices -/

def phoneSecret : Key := .replicate keyLen 7

def desktopSecret : Key := .replicate keyLen 8

def phonePub : Key :=
  ⟨⟨[0x13, 0xbe, 0x4f, 0xea, 0xea, 0xf2, 0x04, 0xc7, 0xfd, 0x33, 0x58, 0xfc, 0x9c, 0x00, 0x72,
    0x18, 0x81, 0xd1, 0x74, 0x27, 0x81, 0x28, 0x22, 0x7e, 0xc6, 0x74, 0xf3, 0x7f, 0x7f, 0xe9,
    0x7b, 0x6d]⟩, rfl⟩

def desktopPub : Key :=
  ⟨⟨[0x31, 0xd4, 0xab, 0x6a, 0xce, 0xec, 0x96, 0x11, 0x37, 0x91, 0x70, 0x37, 0x93, 0x6e, 0x60,
    0x71, 0x6f, 0xac, 0x57, 0x3a, 0xfe, 0x94, 0xd9, 0xda, 0x84, 0xa8, 0x02, 0x04, 0x48, 0xdf,
    0xc1, 0x12]⟩, rfl⟩

def ecdhShared : Key :=
  ⟨⟨[0x9d, 0xaa, 0x9c, 0xba, 0x49, 0x6a, 0x70, 0x05, 0x05, 0x26, 0xf6, 0xca, 0xf2, 0xa6, 0xa0,
    0x6e, 0xfc, 0x55, 0x42, 0xb5, 0xcd, 0x73, 0x57, 0xc8, 0x06, 0x95, 0x72, 0x0d, 0xec, 0x8c,
    0x35, 0x19]⟩, rfl⟩

/-- X25519 on the keys of the two devices; any other secret is its own public key. -/
def deviceX25519 : X25519 where
  publicKey secret :=
    if secret = phoneSecret then phonePub
    else if secret = desktopSecret then desktopPub
    else secret
  diffieHellman secret peer :=
    let own :=
      if secret = phoneSecret then phonePub
      else if secret = desktopSecret then desktopPub
      else secret
    if own = phonePub ∧ peer = desktopPub ∨ own = desktopPub ∧ peer = phonePub then ecdhShared
    else own.zipWith (· ^^^ ·) peer

theorem deviceX25519_commutes : deviceX25519.Commutes := by
  intro a b
  have hxor (k k' : Key) : k.zipWith (· ^^^ ·) k' = k'.zipWith (· ^^^ ·) k := by
    ext i hi
    simp [UInt8.xor_comm]
  have hsymm (k k' : Key) :
      (if k = phonePub ∧ k' = desktopPub ∨ k = desktopPub ∧ k' = phonePub then ecdhShared
        else k.zipWith (· ^^^ ·) k') =
      if k' = phonePub ∧ k = desktopPub ∨ k' = desktopPub ∧ k = phonePub then ecdhShared
        else k'.zipWith (· ^^^ ·) k := by
    rw [hxor]
    refine if_congr ?_ rfl rfl
    constructor
    · rintro (h | h)
      · exact .inr h.symm
      · exact .inl h.symm
    · rintro (h | h)
      · exact .inr h.symm
      · exact .inl h.symm
  exact hsymm (deviceX25519.publicKey a) (deviceX25519.publicKey b)

set_option maxRecDepth 8000 in
/-- The frame of the interop vector opens at a fresh agent. -/
theorem opens_interop :
    let t := run interopCipher interopHkdf interopSetup [.sealMsg 0 (ascii "hello")]
    ∃ pt, ((SecureChannel.new interopHkdf interop .agent).open interopCipher (toBeBytes 0 ++ interopCt)
      t.1.log).1 = .ok pt := by
  have hiff := (opens_iff interopCipher interopCipher_ideal deviceX25519 deviceX25519_commutes interopHkdf
    interop interop .controller .agent [] interop_separates List.not_mem_nil
    [.sealMsg 0 (ascii "hello")]).1
  exact (hiff (ascii "hello") (toBeBytes 0 ++ interopCt) (by decide)).2 ⟨rfl, rfl⟩

end DeskSync.Agent
