import DeskSync.Agent.Handshake

/-!
# The connections of a pair of devices

Two devices with long-term keys establish a channel for each connection, and both ends of it are built
from the same keys and the session id alone. So the keys of two connections differ if and only if their
session ids do (`freshKeys_iff`): a session that is answered again starts over with the keys, the counters
and the replay state of the first time.

The history lists the session ids of the connections in the order in which they are made. Both ends of a
connection are there from the beginning; an end that has not been used is as it was built.
-/

namespace DeskSync.Agent

/-- The long-term secrets of the two devices. -/
structure DevicePair where
  controllerSecret : Key
  agentSecret : Key

namespace DevicePair

variable (x : X25519) (hkdf : Hkdf) (p : DevicePair)

def controllerPub : Key := x.publicKey p.controllerSecret

def agentPub : Key := x.publicKey p.agentSecret

/-- The two ends of a connection. -/
def connect (sessionID : String) : List SecureChannel :=
  [.establish x hkdf p.controllerSecret (p.agentPub x) sessionID (p.controllerPub x) (p.agentPub x) .controller,
    .establish x hkdf p.agentSecret (p.controllerPub x) sessionID (p.controllerPub x) (p.agentPub x) .agent]

/-- What the connections to the sessions `sids` do in a run of calls on their ends. -/
def history (A : Aead Key) (sids : List String) (l : List Op) : Traced :=
  Run.exec (Run.observe (step A) (event A)) (⟨sids.flatMap (p.connect x hkdf), []⟩, []) l

/-! ### The ends of a connection -/

/-- What both ends of a connection are built from. -/
def handshake (sessionID : String) : Handshake :=
  ⟨x25519Ecdh x p.controllerSecret (p.agentPub x), asBytes sessionID, p.controllerPub x, p.agentPub x⟩

def ends (sids : List String) : List (Handshake × Role) :=
  sids.flatMap fun sid => [(p.handshake x sid, .controller), (p.handshake x sid, .agent)]

end DevicePair

/-- The index of an end of the `n`-th connection. -/
def endOf (n : ℕ) : Role → ℕ
  | .controller => 2 * n
  | .agent => 2 * n + 1

theorem endOf_inj {n m : ℕ} {r r' : Role} (h : endOf n r = endOf m r') : n = m ∧ r = r' := by
  cases r <;> cases r' <;> simp only [endOf] at h
  · exact ⟨by omega, rfl⟩
  · omega
  · omega
  · exact ⟨by omega, rfl⟩

theorem exists_endOf (k : ℕ) : ∃ n r, k = endOf n r := by
  obtain ⟨n, h | h⟩ := Nat.even_or_odd' k
  · exact ⟨n, .controller, h⟩
  · exact ⟨n, .agent, h⟩

namespace DevicePair

variable {x : X25519} {hkdf : Hkdf} {p : DevicePair} {A : Aead Key} {sids : List String}

theorem handshake_injective : Function.Injective (p.handshake x) := fun _ _ h =>
  asBytes_injective (congrArg Handshake.sessionID h)

theorem ends_endOf (n : ℕ) (r : Role) :
    (p.ends x sids)[endOf n r]? = sids[n]?.map fun sid => (p.handshake x sid, r) := by
  induction sids generalizing n with
  | nil => cases r <;> rfl
  | cons sid sids ih =>
    cases n with
    | zero => cases r <;> rfl
    | succ n =>
      have hend : endOf (n + 1) r = endOf n r + 2 := by cases r <;> simp only [endOf] <;> omega
      rw [hend, List.getElem?_cons_succ, ← ih n]
      rfl

theorem history_eq (hx : x.Commutes) (l : List Op) :
    p.history x hkdf A sids l = run A hkdf (p.ends x sids) l := by
  have hinit : (⟨sids.flatMap (p.connect x hkdf), []⟩ : World) = .init hkdf (p.ends x sids) := by
    rw [World.init, ends, List.map_flatMap]
    refine congrArg (fun chans => (⟨chans, []⟩ : World)) (List.flatMap_congr fun sid _ => ?_)
    simp only [connect, handshake, SecureChannel.establish, x25519Ecdh, List.map_cons, List.map_nil,
      agentPub, controllerPub, hx p.agentSecret p.controllerSecret]
  rw [history, run, hinit]

end DevicePair

/-! ### Fresh keys -/

/-- Different connections never encrypt different plaintexts under one key and nonce in one direction,
and a later connection accepts a frame of an earlier one only if it has sealed the same frame itself. -/
structure FreshKeys (t : Traced) : Prop where
  nonces : ∀ m n, m ≠ n → ∀ r ch ch', t.1.chans[endOf m r]? = some ch → t.1.chans[endOf n r]? = some ch' →
    ∀ x ∈ t.2.filterMap (sealedBy (endOf m r)), ∀ y ∈ t.2.filterMap (sealedBy (endOf n r)),
      ch.sendKey = ch'.sendKey → nonceFor (counterOf x.2) = nonceFor (counterOf y.2) → x.1 = y.1
  frames : ∀ m n, m < n → ∀ r r', ∀ x ∈ t.2.filterMap (sealedBy (endOf m r)),
    ∀ y ∈ t.2.filterMap (acceptedBy (endOf n r')), y.1 = x.2 →
      (y.2, y.1) ∈ t.2.filterMap (sealedBy (endOf n r'.other))

section Keys
variable {A : Aead Key} {x : X25519} {hkdf : Hkdf} {p : DevicePair} {sids : List String} {t : Traced}

theorem nodup_of_get {m n : ℕ} {sid : String} (hnodup : sids.Nodup) (hm : sids[m]? = some sid)
    (hn : sids[n]? = some sid) : m = n := by
  obtain ⟨hm, rfl⟩ := List.getElem?_eq_some_iff.1 hm
  obtain ⟨hn, heq⟩ := List.getElem?_eq_some_iff.1 hn
  exact (List.Nodup.getElem_inj_iff hnodup).1 heq.symm

/-- The connections of different sessions send under different keys. -/
theorem sendKey_inj (hsep : Separates hkdf (sids.map (p.handshake x))) (hnodup : sids.Nodup) {m n : ℕ}
    {h h' : Handshake} {r r' : Role} (hm : (p.ends x sids)[endOf m r]? = some (h, r))
    (hn : (p.ends x sids)[endOf n r']? = some (h', r'))
    (hkey : (SecureChannel.new hkdf h r).sendKey = (SecureChannel.new hkdf h' r').sendKey) :
    m = n ∧ r = r' := by
  rw [DevicePair.ends_endOf] at hm hn
  obtain ⟨sid, hsid, hsame⟩ := Option.map_eq_some_iff.1 hm
  obtain ⟨sid', hsid', hsame'⟩ := Option.map_eq_some_iff.1 hn
  obtain ⟨rfl, -⟩ := Prod.mk.inj hsame
  obtain ⟨rfl, -⟩ := Prod.mk.inj hsame'
  obtain ⟨hh, rfl⟩ := SecureChannel.new_sendKey_inj hsep
    (List.mem_map_of_mem (List.mem_of_getElem? hsid)) (List.mem_map_of_mem (List.mem_of_getElem? hsid')) hkey
  obtain rfl := DevicePair.handshake_injective hh
  exact ⟨nodup_of_get hnodup hsid hsid', rfl⟩

theorem ends_get {k : ℕ} {h : Handshake} {r : Role} (hk : (p.ends x sids)[k]? = some (h, r)) :
    ∃ n, k = endOf n r := by
  obtain ⟨n, r', rfl⟩ := exists_endOf k
  rw [DevicePair.ends_endOf] at hk
  obtain ⟨sid, -, heq⟩ := Option.map_eq_some_iff.1 hk
  exact ⟨n, by rw [(Prod.mk.inj heq).2]⟩

/-- The other end of a connection has the same handshake. -/
theorem ends_other {n : ℕ} {h : Handshake} {r : Role} (hn : (p.ends x sids)[endOf n r]? = some (h, r)) :
    (p.ends x sids)[endOf n r.other]? = some (h, r.other) := by
  rw [DevicePair.ends_endOf] at hn ⊢
  obtain ⟨sid, hsid, hsame⟩ := Option.map_eq_some_iff.1 hn
  obtain ⟨rfl, -⟩ := Prod.mk.inj hsame
  rw [hsid]
  rfl

theorem freshKeys_of_nodup (hsep : Separates hkdf (sids.map (p.handshake x))) (hnodup : sids.Nodup)
    (hb : Built hkdf (p.ends x sids) t.1) (hg : Logged A hkdf (p.ends x sids) t)
    (ha : Accepted A hkdf (p.ends x sids) t) : FreshKeys t where
  nonces m n hne r ch ch' hch hch' x _ y _ hkey _ := by
    obtain ⟨h, r₁, hm, hfresh⟩ := hb.get hch
    obtain ⟨h', r₂, hn, hfresh'⟩ := hb.get hch'
    obtain ⟨m', heq⟩ := ends_get hm
    obtain ⟨n', heq'⟩ := ends_get hn
    obtain ⟨rfl, rfl⟩ := endOf_inj heq
    obtain ⟨rfl, rfl⟩ := endOf_inj heq'
    have hkeys : (SecureChannel.new hkdf h r).sendKey = (SecureChannel.new hkdf h' r).sendKey := by
      rw [← hfresh, ← hfresh']
      exact hkey
    exact absurd (sendKey_inj hsep hnodup hm hn hkeys).1 hne
  frames m n _ r r' sealedMsg hsealed y hy heq := by
    obtain ⟨-, -, n₀, ct₀, -, hne, hframe, -⟩ := hg.sealed _ _ hsealed
    obtain ⟨h, s, hn, hmem, henc⟩ := ha _ y hy
    obtain ⟨k, h', r₂, n', ct, hk, hentry, hencrypted⟩ := hg.logged _ hmem
    obtain ⟨n₁, hend⟩ := ends_get hn
    obtain ⟨rfl, rfl⟩ := endOf_inj hend
    obtain ⟨n₂, rfl⟩ := ends_get hk
    have hother := ends_other hn
    obtain ⟨hkey, hnonce, -, -⟩ := Sealing.mk.inj hentry
    obtain ⟨rfl, rfl⟩ := sendKey_inj hsep hnodup hother hk hkey
    obtain ⟨rfl, -⟩ := Prod.mk.inj (Option.some.inj (hother.symm.trans hk))
    obtain rfl := nonceFor_injective hnonce
    -- a sealed frame does not have the last counter, so the other end has returned this one
    have hcounter : counterOf y.1 = n₀ := by rw [heq, hframe, counterOf_append]
    have hreturned := hencrypted.sealed.resolve_left (hcounter ▸ hne)
    have hct : ct = y.1.drop counterLen := Option.some.inj (hencrypted.encrypts.symm.trans henc)
    have hbytes : toBeBytes (counterOf y.1) ++ ct = y.1 := by
      rw [hct, hcounter, heq, hframe, List.drop_left' (length_toBeBytes n₀)]
    rwa [hbytes] at hreturned

/-- The empty plaintext of a fresh controller opens at every fresh agent of its handshake. -/
theorem replayed (hkdf : Hkdf) (hA : A.Ideal tagLen) (henc : ∀ k nonce aad, (A.encrypt k nonce aad []).isSome)
    {setup : List (Handshake × Role)} {i j : ℕ} {h : Handshake} (hi : setup[i]? = some (h, .controller))
    (hj : setup[j]? = some (h, .agent)) : ∃ frame,
      (run A hkdf setup [.sealMsg i [], .openFrame j frame]).2 =
        [.sealed i [] (.ok frame), .opened j frame (.ok [])] := by
  have hne : i ≠ j := by
    rintro rfl
    rw [hi] at hj
    cases hj
  have hget {k : ℕ} {r : Role} (hk : setup[k]? = some (h, r)) :
      (World.init hkdf setup).chans[k]? = some (.new hkdf h r) := by
    rw [World.init, List.getElem?_map, hk]
    rfl
  obtain ⟨ct, hct⟩ := Option.isSome_iff_exists.1 (henc (SecureChannel.new hkdf h .controller).sendKey
    (nonceFor 0) (aadFor (SecureChannel.new hkdf h .controller).sessionID
      (SecureChannel.new hkdf h .controller).sendDir))
  have hseal : ((SecureChannel.new hkdf h .controller).seal A [] (World.init hkdf setup).log).1 =
      .ok (toBeBytes 0 ++ ct) := by
    unfold SecureChannel.seal
    dsimp only
    rw [show (SecureChannel.new hkdf h .controller).sendCounter = 0 from rfl, hct]
    rfl
  have hfirst : (run A hkdf setup [.sealMsg i []]).2 = [.sealed i [] (.ok (toBeBytes 0 ++ ct))] := by
    simp only [run, List.foldl_cons, List.foldl_nil, Run.observe, event, hget hi, Option.map_some,
      Option.toList_some, List.nil_append, hseal]
  refine ⟨toBeBytes 0 ++ ct, ?_⟩
  have hlast : (run A hkdf setup [.sealMsg i []]).1.chans[j]? = some (.new hkdf h .agent) := by
    simp only [run, List.foldl_cons, List.foldl_nil, Run.observe, step, hget hi]
    rw [List.getElem?_set_ne hne]
    exact hget hj
  have hmem : ([], toBeBytes 0 ++ ct) ∈ (run A hkdf setup [.sealMsg i []]).2.filterMap (sealedBy i) := by
    rw [hfirst]
    exact List.mem_filterMap.2 ⟨_, List.mem_singleton_self _, if_pos rfl⟩
  have hopen := (logged_run [.sealMsg i []]).opens hA.correct (r := .agent) hi
    (SecureChannel.fresh_new hkdf h .agent) hmem fun last hlast => by cases hlast
  have hsplit : run A hkdf setup [.sealMsg i [], .openFrame j (toBeBytes 0 ++ ct)] =
      Run.observe (step A) (event A) (run A hkdf setup [.sealMsg i []])
        (.openFrame j (toBeBytes 0 ++ ct)) := rfl
  rw [hsplit, Run.observe, hfirst, event, hlast, Option.map_some, hopen]
  rfl

end Keys

/-- The connections of a pair of devices keep their keys and frames apart in every run, if and only if no
session id comes back. -/
theorem freshKeys_iff (A : Aead Key) (hA : A.Ideal tagLen)
    (henc : ∀ k nonce aad, (A.encrypt k nonce aad []).isSome) (x : X25519) (hx : x.Commutes) (hkdf : Hkdf)
    (p : DevicePair) (sids : List String) (hsep : Separates hkdf (sids.map (p.handshake x))) :
    (∀ l, FreshKeys (p.history x hkdf A sids l)) ↔ sids.Nodup := by
  constructor
  · intro h
    refine List.nodup_iff_getElem?_ne_getElem?.2 fun i j hij hj heq => ?_
    have hsid : sids[j]? = some sids[j] := List.getElem?_eq_getElem hj
    have hi : (p.ends x sids)[endOf i .controller]? = some (p.handshake x sids[j], .controller) := by
      rw [DevicePair.ends_endOf, heq, hsid]
      rfl
    have hj : (p.ends x sids)[endOf j .agent]? = some (p.handshake x sids[j], .agent) := by
      rw [DevicePair.ends_endOf, hsid]
      rfl
    obtain ⟨frame, hrun⟩ := replayed hkdf hA henc hi hj
    have hfresh := h [.sealMsg (endOf i .controller) [], .openFrame (endOf j .agent) frame]
    rw [DevicePair.history_eq hx] at hfresh
    have hown := hfresh.frames i j hij .controller .agent ([], frame)
      (by rw [hrun]; simp [sealedBy]) (frame, []) (by rw [hrun]; simp [acceptedBy]) rfl
    have hne : endOf i .controller ≠ endOf j .controller := fun heq => by
      have := (endOf_inj heq).1
      omega
    rw [hrun] at hown
    simp [sealedBy, Role.other, hne] at hown
  · intro hnodup l
    rw [DevicePair.history_eq hx]
    exact freshKeys_of_nodup hsep hnodup (built_run l) (logged_run l) (accepted_run hA l)

/-! ### Sessions of two devices -/

def devices : DevicePair := ⟨phoneSecret, desktopSecret⟩

/-- The keys of the sessions `sess-1` and `sess-2`. -/
def deviceKey (sid : String) : Role → Key
  | .controller =>
    if sid = "sess-1" then
      ⟨⟨[0x9a, 0x99, 0x4a, 0x6b, 0xb5, 0x16, 0x71, 0x5d, 0x01, 0x56, 0xdb, 0xc6, 0x75, 0x79, 0xa7,
      0xb8, 0xe4, 0xb5, 0xe0, 0x5c, 0x6f, 0xba, 0x8b, 0xee, 0xa1, 0x92, 0xf7, 0xd1, 0x74, 0xc6,
      0x2b, 0x00]⟩, rfl⟩
    else
      ⟨⟨[0xed, 0xf2, 0xbd, 0xc6, 0x7e, 0x22, 0x8c, 0xf3, 0xa1, 0x35, 0xce, 0x58, 0x57, 0x8b, 0x8d,
      0x67, 0x6b, 0x4b, 0xd0, 0x57, 0x39, 0xc4, 0x31, 0x36, 0xcd, 0x94, 0xe4, 0x85, 0x6d, 0x2e,
      0x23, 0xe5]⟩, rfl⟩
  | .agent =>
    if sid = "sess-1" then
      ⟨⟨[0x15, 0xf1, 0x87, 0x5e, 0x36, 0x25, 0x43, 0x13, 0x1d, 0xac, 0x46, 0x0d, 0xd5, 0xf8, 0x52,
      0x55, 0xea, 0xb3, 0xc5, 0xa5, 0x21, 0x97, 0xe6, 0xf1, 0xda, 0x8d, 0xca, 0x96, 0x49, 0xac,
      0x72, 0x12]⟩, rfl⟩
    else
      ⟨⟨[0xcb, 0x36, 0x10, 0x45, 0x5a, 0x83, 0x25, 0x2d, 0x7b, 0xe3, 0x56, 0x9a, 0xb9, 0x7b, 0xb1,
      0x31, 0x82, 0x69, 0x7b, 0xd7, 0xac, 0x99, 0x4c, 0x5e, 0x87, 0x20, 0x62, 0x70, 0xb1, 0xae,
      0xf1, 0xbf]⟩, rfl⟩

/-- HKDF-SHA256 on the inputs of the two sessions. -/
def deviceHkdf : Hkdf := fun salt ikm info =>
  let inputs := [("sess-1", Role.controller), ("sess-1", .agent), ("sess-2", .controller), ("sess-2", .agent)]
  let input := inputs.find? fun i =>
    salt = hkdfSalt ∧ ikm = ecdhShared.toList ∧
      info = (devices.handshake deviceX25519 i.1).info i.2.sendInfo
  match input with
  | some i => deviceKey i.1 i.2
  | none => .replicate keyLen 0

theorem deviceHkdf_eq : ∀ sid ∈ ["sess-1", "sess-2"], ∀ r ∈ [Role.controller, .agent],
    deviceHkdf hkdfSalt (devices.handshake deviceX25519 sid).shared.toList
      ((devices.handshake deviceX25519 sid).info r.sendInfo) = deviceKey sid r := by
  decide +kernel

theorem deviceKey_inj : ∀ sid ∈ ["sess-1", "sess-2"], ∀ sid' ∈ ["sess-1", "sess-2"],
    ∀ r ∈ [Role.controller, .agent], ∀ r' ∈ [Role.controller, .agent],
      deviceKey sid r = deviceKey sid' r' → sid = sid' ∧ r = r' := by
  decide +kernel

theorem device_separates {sids : List String} (hsids : ∀ sid ∈ sids, sid ∈ ["sess-1", "sess-2"]) :
    Separates deviceHkdf (sids.map (devices.handshake deviceX25519)) := by
  have hrole (r : Role) : r ∈ [Role.controller, .agent] := by cases r <;> decide
  intro h hh h' hh' r r' heq
  obtain ⟨sid, hsid, rfl⟩ := List.mem_map.1 hh
  obtain ⟨sid', hsid', rfl⟩ := List.mem_map.1 hh'
  rw [deviceHkdf_eq sid (hsids sid hsid) r (hrole r), deviceHkdf_eq sid' (hsids sid' hsid') r' (hrole r')]
    at heq
  obtain ⟨rfl, rfl⟩ := deviceKey_inj sid (hsids sid hsid) sid' (hsids sid' hsid') r (hrole r) r' (hrole r') heq
  exact ⟨rfl, rfl⟩

/-- What AES-256-GCM makes of `one` under the first nonce of the controller of `sess-1`. -/
def oneCt : Bytes :=
  [0xe4, 0xb6, 0x89, 0xbc, 0xbd, 0xdf, 0x66, 0xa8, 0x69, 0xcb, 0x3e, 0xec, 0x28, 0x5b, 0x55,
    0x2e, 0x19, 0xeb, 0xe2]

def twoCt : Bytes :=
  [0xff, 0xaf, 0x83, 0xfc, 0x5a, 0x20, 0xef, 0x7e, 0x96, 0x22, 0x36, 0xb7, 0xbb, 0x22, 0x94,
    0x73, 0xf4, 0x32, 0x3c]

def deviceText (msg : Bytes) : Bytes :=
  if msg = ascii "one" then oneCt else if msg = ascii "two" then twoCt else msg ++ List.replicate tagLen 0

/-- AES-256-GCM on the two plaintexts; any other message is followed by a zero tag. -/
def deviceEncrypt (k : Key) (nonce aad msg : Bytes) : Option Bytes :=
  if k = deviceKey "sess-1" .controller ∧ nonce = nonceFor 0 ∧ aad = aadFor (ascii "sess-1") dirC2A then
    some (deviceText msg)
  else some (msg ++ List.replicate tagLen 0)

def deviceCipher : Aead Key := .ofEncrypt deviceEncrypt

theorem ne_zero_tag (ct : Bytes) (hlen : ct.length = 3 + tagLen) (htag : ct.drop 3 ≠ List.replicate tagLen 0)
    (msg : Bytes) : ct ≠ msg ++ List.replicate tagLen 0 := by
  rintro rfl
  have hmsg : msg.length = 3 := by simpa using hlen
  rw [List.drop_left' hmsg] at htag
  exact htag rfl

theorem deviceText_injective : Function.Injective deviceText := by
  have hone := ne_zero_tag oneCt rfl (by decide)
  have htwo := ne_zero_tag twoCt rfl (by decide)
  have hne : oneCt ≠ twoCt := by decide
  intro m m' h
  unfold deviceText at h
  split_ifs at h with h₁ h₂ h₃ h₄ h₅ h₆
  · rw [h₁, h₂]
  · exact absurd h hne
  · exact absurd h (hone m')
  · exact absurd h.symm hne
  · rw [h₄, h₆]
  · exact absurd h (htwo m')
  · exact absurd h.symm (hone m)
  · exact absurd h.symm (htwo m)
  · exact List.append_cancel_right h

theorem length_deviceText (msg : Bytes) : (deviceText msg).length = msg.length + tagLen := by
  unfold deviceText
  split_ifs with h₁ h₂
  · rw [h₁]
    rfl
  · rw [h₂]
    rfl
  · rw [List.length_append, List.length_replicate]

theorem deviceCipher_ideal : deviceCipher.Ideal tagLen := by
  refine Aead.ofEncrypt_ideal ?_ ?_
  · intro k nonce aad m m' ct hm hm'
    unfold deviceEncrypt at hm hm'
    split_ifs at hm hm'
    · exact deviceText_injective (Option.some.inj (hm.trans hm'.symm))
    · exact List.append_cancel_right (Option.some.inj (hm.trans hm'.symm))
  · intro k nonce aad m ct hm
    unfold deviceEncrypt at hm
    split_ifs at hm
    · rw [← Option.some.inj hm, length_deviceText]
    · rw [← Option.some.inj hm, List.length_append, List.length_replicate]

theorem deviceCipher_encrypts (k : Key) (nonce aad : Bytes) : (deviceCipher.encrypt k nonce aad []).isSome := by
  show (deviceEncrypt k nonce aad []).isSome
  unfold deviceEncrypt
  split_ifs <;> rfl

/-- Two sessions, and the second agent is handed the frame of the first connection. -/
theorem freshKeys_devices :
    FreshKeys (devices.history deviceX25519 deviceHkdf deviceCipher ["sess-1", "sess-2"]
      [.sealMsg (endOf 0 .controller) (ascii "one"), .sealMsg (endOf 1 .controller) (ascii "two"),
        .openFrame (endOf 1 .agent) (toBeBytes 0 ++ oneCt)]) :=
  (freshKeys_iff deviceCipher deviceCipher_ideal deviceCipher_encrypts deviceX25519 deviceX25519_commutes
    deviceHkdf devices ["sess-1", "sess-2"] (device_separates fun _ h => h)).2 (by decide) _

/-- The session is answered twice; the phone seals `one` in the first connection and `two` in the second,
and the second agent is handed the frame of the first connection. -/
def answeredTwice : Traced :=
  devices.history deviceX25519 deviceHkdf deviceCipher ["sess-1", "sess-1"]
    [.sealMsg (endOf 0 .controller) (ascii "one"), .sealMsg (endOf 1 .controller) (ascii "two"),
      .openFrame (endOf 1 .agent) (toBeBytes 0 ++ oneCt)]

/-- One key and nonce for two plaintexts, and a frame of the first connection is accepted in the
second. -/
theorem reused_session :
    deviceCipher.Ideal tagLen ∧ deviceX25519.Commutes ∧
      Separates deviceHkdf (["sess-1", "sess-1"].map (devices.handshake deviceX25519)) ∧
      answeredTwice.2.filterMap (sealedBy (endOf 0 .controller)) = [(ascii "one", toBeBytes 0 ++ oneCt)] ∧
      answeredTwice.2.filterMap (sealedBy (endOf 1 .controller)) = [(ascii "two", toBeBytes 0 ++ twoCt)] ∧
      answeredTwice.2.filterMap (acceptedBy (endOf 1 .agent)) = [(toBeBytes 0 ++ oneCt, ascii "one")] ∧
      ¬ FreshKeys answeredTwice := by
  have hfirst : answeredTwice.2.filterMap (sealedBy (endOf 0 .controller)) =
      [(ascii "one", toBeBytes 0 ++ oneCt)] := by decide +kernel
  have hsecond : answeredTwice.2.filterMap (sealedBy (endOf 1 .controller)) =
      [(ascii "two", toBeBytes 0 ++ twoCt)] := by decide +kernel
  have haccepted : answeredTwice.2.filterMap (acceptedBy (endOf 1 .agent)) =
      [(toBeBytes 0 ++ oneCt, ascii "one")] := by decide +kernel
  refine ⟨deviceCipher_ideal, deviceX25519_commutes,
    device_separates fun sid h => by simp only [List.mem_cons, List.not_mem_nil, or_false, or_self] at h; simp [h],
    hfirst, hsecond, haccepted, fun hfresh => ?_⟩
  have hown := hfresh.frames 0 1 Nat.zero_lt_one .controller .agent (ascii "one", toBeBytes 0 ++ oneCt)
    (by rw [hfirst]; exact List.mem_singleton_self _) (toBeBytes 0 ++ oneCt, ascii "one")
    (by rw [haccepted]; exact List.mem_singleton_self _) rfl
  rw [show Role.agent.other = .controller from rfl, hsecond] at hown
  exact absurd (Prod.mk.inj (List.mem_singleton.1 hown)).1 (by decide)

end DeskSync.Agent
