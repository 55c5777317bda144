import DeskSync.Fleet.Service

/-!
# The pairing link

The desktop shows the link that `buildQRPayload` of the pairing service makes, and `PairingLink.tryParse` of the
app reads it. Of `Uri` it uses the scheme, the host and the query, so `Uri.tryParse` here is the syntax of these;
the parser normalises the query, which leaves the escapes of the service as they are. What the app makes of the
link is the pairing id and the code of the service, each trimmed (`tryParse_buildQRPayload`).
-/

namespace DeskSync.Mobile

open Backend Fleet

/-! ### Strings -/

/-- What `String.trim` takes for whitespace: the Unicode property, and U+FEFF. -/
def isWhitespace (c : Char) : Bool :=
  let n := c.toNat
  (9 ≤ n && n ≤ 13) || n = 32 || n = 0x85 || n = 0xA0 || n = 0x1680 || (0x2000 ≤ n && n ≤ 0x200A) ||
    n = 0x2028 || n = 0x2029 || n = 0x202F || n = 0x205F || n = 0x3000 || n = 0xFEFF

/-- `String.trim`. -/
def trim (s : String) : String := String.ofList ((s.toList.dropWhile isWhitespace).rdropWhile isWhitespace)

/-- A leading U+FEFF is dropped by the decoder. -/
def dropBom (s : String) : String :=
  match s.toList with
  | [] => s
  | c :: cs => if c = '\uFEFF' then String.ofList cs else s

inductive Thrown where
  | argumentError
  | formatException
  deriving DecidableEq, Repr

/-- `utf8.decode`. -/
def utf8Decode (bs : Bytes) : Except Thrown String :=
  match String.fromUTF8? ⟨bs.toArray⟩ with
  | none => .error .formatException
  | some s => .ok (dropBom s)

/-! ### `Uri` -/

structure Uri where
  scheme : String
  host : String
  query : String
  deriving DecidableEq, Repr

namespace Uri

def isSubDelim (c : Char) : Bool := "!$&'()*+,;=".toList.contains c

def isUnreserved (c : Char) : Bool := c.toNat < 0x80 && Percent.unreserved (UInt8.ofNat c.toNat)

/-- What stands in a query unescaped. -/
def isQueryChar (c : Char) : Bool := isUnreserved c || isSubDelim c || ":@/?".toList.contains c

def isSchemeChar (c : Char) : Bool := c.isAlphanum || "+-.".toList.contains c

def validScheme : List Char → Bool
  | [] => false
  | c :: cs => c.isAlpha && cs.all isSchemeChar

/-- The host of an authority, behind the user information and before the port. An address in brackets is taken as
it stands. -/
def authorityHost (authority : List Char) : Option (List Char) :=
  let hostPort := authority.rtakeWhile (· != '@')
  if hostPort.head? = some '[' then some hostPort
  else
    let host := hostPort.takeWhile (· != ':')
    let port := (hostPort.dropWhile (· != ':')).tail
    if port.all Char.isDigit && !host.contains '[' && !host.contains ']' then
      some (Percent.normalize (fun c => isUnreserved c || isSubDelim c) Char.toLower host)
    else none

/-- What follows the scheme, up to the query. -/
def hierHost : List Char → Option (List Char)
  | '/' :: '/' :: rest => authorityHost (rest.takeWhile (· != '/'))
  | _ => some []

/-- `Uri.tryParse`. -/
def tryParse (raw : String) : Option Uri :=
  let uri := raw.toList.takeWhile (· != '#')
  let hier := uri.takeWhile (· != '?')
  let query := String.ofList (Percent.normalize isQueryChar id (uri.dropWhile (· != '?')).tail)
  let scheme := hier.takeWhile fun c => c != ':' && c != '/'
  match hier.dropWhile fun c => c != ':' && c != '/' with
  | ':' :: rest =>
    if validScheme scheme then
      (hierHost rest).map fun host => ⟨String.ofList (scheme.map Char.toLower), String.ofList host, query⟩
    else none
  | _ => (hierHost hier).map fun host => ⟨"", String.ofList host, query⟩

/-- `Uri.decodeQueryComponent`. -/
def decodeQueryComponent (component : List Char) : Except Thrown String :=
  match Percent.queryUnescape component with
  | none => .error .argumentError
  | some bs => utf8Decode bs

/-- A step of the fold of `Uri.splitQueryString`. -/
def addParameter (map : String → Option String) (element : List Char) : Except Thrown (String → Option String) :=
  let key := element.takeWhile (· != '=')
  match element.dropWhile (· != '=') with
  | [] =>
    if element = [] then .ok map
    else do return Function.update map (← decodeQueryComponent element) (some "")
  | _ :: value =>
    if key = [] then .ok map
    else do return Function.update map (← decodeQueryComponent key) (some (← decodeQueryComponent value))

/-- `queryParameters`. -/
def queryParameters (uri : Uri) : Except Thrown (String → Option String) :=
  (uri.query.toList.splitOn '&').foldlM addParameter fun _ => none

end Uri

/-! ### `PairingLink` -/

structure PairingLink where
  pairingId : String
  code : String
  deriving DecidableEq, Repr

namespace PairingLink

def scheme : String := "desksync"

def host : String := "pair"

/-- `none` is the `null` of a string that is no valid link. -/
def tryParse (raw : String) : Except Thrown (Option PairingLink) :=
  match Uri.tryParse (trim raw) with
  | none => .ok none
  | some uri =>
    if uri.scheme ≠ scheme ∨ uri.host ≠ host then .ok none
    else do
      let parameters ← uri.queryParameters
      let pid := ((parameters "pid").map trim).getD ""
      let code := ((parameters "code").map trim).getD ""
      return if pid.isEmpty || code.isEmpty then none else some ⟨pid, code⟩

end PairingLink

/-! ### The link of the service -/

/-- The query of the link. -/
def linkQuery (pid code : String) : List Char :=
  Values.pair ("code", code) ++ '&' :: (Values.pair ("pid", pid) ++ '&' :: Values.pair ("v", "1"))

/-- The link without its query. -/
def linkHead : List Char :=
  ['d', 'e', 's', 'k', 's', 'y', 'n', 'c', ':', '/', '/', 'p', 'a', 'i', 'r']

section Link
variable (pid code : String)

/-- `Encode` puts the code first. -/
theorem toList_buildQRPayload : (buildQRPayload pid code).toList = linkHead ++ '?' :: linkQuery pid code := by
  have hset : ((Values.set [] "v" qrVersion).set "pid" pid).set "code" code =
      [("v", "1"), ("pid", pid), ("code", code)] := rfl
  have hsorted : [("v", "1"), ("pid", pid), ("code", code)].insertionSort (fun a b => a.1 ≤ b.1) =
      [("code", code), ("pid", pid), ("v", "1")] := by
    have hpid : List.orderedInsert (fun a b : String × String => a.1 ≤ b.1) ("pid", pid) [("code", code)] =
        [("code", code), ("pid", pid)] := if_neg (by decide : ¬"pid" ≤ "code")
    have hv : List.orderedInsert (fun a b : String × String => a.1 ≤ b.1) ("v", "1") [("pid", pid)] =
        [("pid", pid), ("v", "1")] := if_neg (by decide : ¬"v" ≤ "pid")
    have hall : List.orderedInsert (fun a b : String × String => a.1 ≤ b.1) ("v", "1")
        [("code", code), ("pid", pid)] =
          ("code", code) :: List.orderedInsert (fun a b => a.1 ≤ b.1) ("v", "1") [("pid", pid)] :=
      if_neg (by decide : ¬"v" ≤ "code")
    rw [List.insertionSort, List.foldr, List.foldr, List.foldr, List.foldr, List.orderedInsert, hpid, hall, hv]
  have hjoin : ∀ a b c : List Char, List.intercalate ['&'] [a, b, c] = a ++ '&' :: (b ++ '&' :: c) := by
    intro a b c
    simp [List.intercalate]
  have hhead : qrScheme.toList ++ "://".toList ++ qrHost.toList ++ "?".toList = linkHead ++ ['?'] := by decide
  unfold buildQRPayload
  dsimp only
  rw [hset, Values.encode, hsorted]
  simp only [String.toList_append, String.toList_ofList, List.map_cons, List.map_nil]
  rw [hhead, hjoin, List.append_assoc, List.singleton_append]
  rfl

theorem queryChar_lt {c : Char} (h : Percent.queryChar c = true) : c.toNat < 0x80 := by
  simp only [Percent.queryChar, Bool.or_eq_true, Bool.and_eq_true, beq_iff_eq, decide_eq_true_eq] at h
  rcases h with (rfl | rfl) | ⟨h, -⟩
  · decide
  · decide
  · exact h

/-- What `queryEscape` writes separates nothing, and may stand in a query. -/
theorem queryChar_spec {c : Char} (h : Percent.queryChar c = true) :
    c ≠ '#' ∧ c ≠ '&' ∧ c ≠ '=' ∧ isWhitespace c = false ∧ (c ≠ '%' → Uri.isQueryChar c = true) := by
  have hall : ∀ n < 0x80, Percent.queryChar (Char.ofNat n) = true →
      Char.ofNat n ≠ '#' ∧ Char.ofNat n ≠ '&' ∧ Char.ofNat n ≠ '=' ∧
        isWhitespace (Char.ofNat n) = false ∧ (Char.ofNat n ≠ '%' → Uri.isQueryChar (Char.ofNat n) = true) := by
    decide +kernel
  have hc := hall c.toNat (queryChar_lt h)
  rw [Char.ofNat_toNat] at hc
  exact hc h

theorem mem_pair {p : String × String} {c : Char} (h : c ∈ Values.pair p) :
    Percent.queryChar c = true ∨ c = '=' := by
  rw [Values.pair, List.mem_append, List.mem_cons] at h
  rcases h with h | h | h
  · exact .inl (Percent.queryChar_of_mem h)
  · exact .inr h
  · exact .inl (Percent.queryChar_of_mem h)

/-- The characters of the link. -/
theorem linkChar {c : Char} (h : c ∈ linkHead ++ '?' :: linkQuery pid code) : c ≠ '#' ∧ isWhitespace c = false := by
  have hpair {p : String × String} (h : c ∈ Values.pair p) : c ≠ '#' ∧ isWhitespace c = false := by
    rcases mem_pair h with h | rfl
    · exact ⟨(queryChar_spec h).1, (queryChar_spec h).2.2.2.1⟩
    · decide
  have hhead : linkHead.all (fun c => c != '#' && !isWhitespace c) = true := by decide
  simp only [linkQuery, List.mem_append, List.mem_cons] at h
  rcases h with h | rfl | h | rfl | h | rfl | h
  · simpa using List.all_eq_true.1 hhead c h
  · decide
  · exact hpair h
  · decide
  · exact hpair h
  · decide
  · exact hpair h

/-! ### What the parser makes of it -/

theorem normalize_pair (p : String × String) (cs : List Char) :
    Percent.normalize Uri.isQueryChar id (Values.pair p ++ cs) =
      Values.pair p ++ Percent.normalize Uri.isQueryChar id cs := by
  have hescape (s : String) (cs : List Char) : Percent.normalize Uri.isQueryChar id (queryEscape s ++ cs) =
      queryEscape s ++ Percent.normalize Uri.isQueryChar id cs :=
    Percent.normalize_queryEscape (fun c h => (queryChar_spec h).2.2.2.2) (fun _ => rfl) _ _
  rw [Values.pair, List.append_assoc, hescape, List.cons_append, Percent.normalize_cons (by decide) (by decide),
    hescape, List.append_assoc, List.cons_append]
  rfl

theorem normalize_linkQuery : Percent.normalize Uri.isQueryChar id (linkQuery pid code) = linkQuery pid code := by
  have hlast : Percent.normalize Uri.isQueryChar id (Values.pair ("v", "1")) = Values.pair ("v", "1") := by
    have h := normalize_pair ("v", "1") []
    rwa [List.append_nil, Percent.normalize, List.append_nil] at h
  rw [linkQuery, normalize_pair, Percent.normalize_cons (by decide) (by decide), normalize_pair,
    Percent.normalize_cons (by decide) (by decide), hlast]
  rfl

/-- The scheme, the host and the query of the link. -/
theorem uri_tryParse : Uri.tryParse (buildQRPayload pid code) =
    some ⟨"desksync", "pair", String.ofList (linkQuery pid code)⟩ := by
  have hfragment : (linkHead ++ '?' :: linkQuery pid code).takeWhile (· != '#') =
      linkHead ++ '?' :: linkQuery pid code :=
    List.takeWhile_eq_self_iff.2 fun c hc => bne_iff_ne.2 (linkChar pid code hc).1
  have hhead : linkHead.all (· != '?') = true := by decide
  have hhier : (linkHead ++ '?' :: linkQuery pid code).takeWhile (· != '?') = linkHead := by
    rw [List.takeWhile_append_of_pos (List.all_eq_true.1 hhead), List.takeWhile_cons_of_neg (by decide),
      List.append_nil]
  have hquery : (linkHead ++ '?' :: linkQuery pid code).dropWhile (· != '?') = '?' :: linkQuery pid code := by
    rw [List.dropWhile_append_of_pos (List.all_eq_true.1 hhead), List.dropWhile_cons_of_neg (by decide)]
  unfold Uri.tryParse
  simp only [toList_buildQRPayload, hfragment, hhier, hquery, List.tail_cons, normalize_linkQuery]
  rfl

/-! ### The parameters -/

theorem utf8Decode_bytes (s : String) : utf8Decode (bytes s) = .ok (dropBom s) := by
  rw [utf8Decode, fromUTF8_bytes]

theorem decodeQueryComponent_queryEscape (s : String) :
    Uri.decodeQueryComponent (queryEscape s) = .ok (dropBom s) := by
  rw [Uri.decodeQueryComponent, queryEscape, Percent.queryUnescape_queryEscape]
  exact utf8Decode_bytes s

/-- A key and its value are read as the service has written them. -/
theorem addParameter_pair (map : String → Option String) {key : String} (hkey : queryEscape key ≠ []) (value : String) :
    Uri.addParameter map (Values.pair (key, value)) =
      .ok (Function.update map (dropBom key) (some (dropBom value))) := by
  have hne : ∀ c ∈ queryEscape key, (c != '=') = true :=
    fun c hc => bne_iff_ne.2 (queryChar_spec (Percent.queryChar_of_mem hc)).2.2.1
  have htake : (queryEscape key ++ '=' :: queryEscape value).takeWhile (· != '=') = queryEscape key := by
    rw [List.takeWhile_append_of_pos hne, List.takeWhile_cons_of_neg (by decide), List.append_nil]
  have hdrop : (queryEscape key ++ '=' :: queryEscape value).dropWhile (· != '=') = '=' :: queryEscape value := by
    rw [List.dropWhile_append_of_pos hne, List.dropWhile_cons_of_neg (by decide)]
  simp only [Uri.addParameter, Values.pair, htake, hdrop, if_neg hkey, decodeQueryComponent_queryEscape]
  rfl

/-- The parameters of the link. -/
theorem queryParameters_link (scheme host : String) :
    Uri.queryParameters ⟨scheme, host, String.ofList (linkQuery pid code)⟩ =
      .ok (Function.update (Function.update (Function.update (fun _ => none) "code" (some (dropBom code)))
        "pid" (some (dropBom pid))) "v" (some "1")) := by
  have hpair (p : String × String) : '&' ∉ Values.pair p := by
    intro h
    rcases mem_pair h with h | h
    · exact (queryChar_spec h).2.1 rfl
    · cases h
  have hsplit : (linkQuery pid code).splitOn '&' =
      [Values.pair ("code", code), Values.pair ("pid", pid), Values.pair ("v", "1")] := by
    rw [linkQuery, List.splitOn_append_cons_of_beq _ _ (by decide), List.splitOn_append_cons_of_beq _ _ (by decide),
      List.splitOn_eq_singleton (hpair _), List.splitOn_eq_singleton (hpair _), List.splitOn_eq_singleton (hpair _)]
    rfl
  have hkeys : queryEscape "code" ≠ [] ∧ queryEscape "pid" ≠ [] ∧ queryEscape "v" ≠ [] := by decide
  have hbom : dropBom "code" = "code" ∧ dropBom "pid" = "pid" ∧ dropBom "v" = "v" ∧ dropBom "1" = "1" := by decide
  have hgo (m : String → Option String) (f : (String → Option String) → Except Thrown (String → Option String)) :
      (Except.ok m >>= f) = f m := rfl
  rw [Uri.queryParameters, String.toList_ofList, hsplit, List.foldlM_cons, addParameter_pair _ hkeys.1, hgo,
    List.foldlM_cons, addParameter_pair _ hkeys.2.1, hgo, List.foldlM_cons, addParameter_pair _ hkeys.2.2, hgo,
    List.foldlM_nil, hbom.1, hbom.2.1, hbom.2.2.1, hbom.2.2.2]
  rfl

end Link

/-! ### Trimming -/

section Trim
variable {s : String}

/-- Neither the first character nor the last is whitespace. -/
def Trimmed (s : String) : Prop :=
  ∀ c, s.toList.head? = some c ∨ s.toList.getLast? = some c → isWhitespace c = false

instance : Decidable (Trimmed s) :=
  decidable_of_iff (s.toList.head?.all (fun c => !isWhitespace c) ∧ s.toList.getLast?.all (fun c => !isWhitespace c))
    (by simp only [Option.all_eq_true, Bool.not_eq_true', Trimmed, or_imp, forall_and])

theorem trim_of_trimmed (h : Trimmed s) : trim s = s := by
  have hleft : s.toList.dropWhile isWhitespace = s.toList := by
    cases hs : s.toList with
    | nil => rfl
    | cons c cs =>
      have hc : isWhitespace c = false := h c (.inl (by rw [hs, List.head?_cons]))
      rw [List.dropWhile_cons_of_neg (by rw [hc]; exact Bool.false_ne_true)]
  have hright : s.toList.rdropWhile isWhitespace = s.toList := by
    refine List.rdropWhile_eq_self_iff.2 fun hne => ?_
    rw [h _ (.inr (List.getLast?_eq_some_getLast hne))]
    exact Bool.false_ne_true
  rw [trim, hleft, hright, String.ofList_toList]

theorem trim_buildQRPayload (pid code : String) : trim (buildQRPayload pid code) = buildQRPayload pid code := by
  refine trim_of_trimmed fun c hc => ?_
  rw [toList_buildQRPayload] at hc
  refine (linkChar pid code ?_).2
  rcases hc with hc | hc
  · exact List.mem_of_head? hc
  · exact List.mem_of_getLast? hc

/-- U+FEFF is trimmed anyway. -/
theorem trim_dropBom (s : String) : trim (dropBom s) = trim s := by
  unfold dropBom
  cases hs : s.toList with
  | nil => rfl
  | cons c cs =>
    dsimp only
    split_ifs with hc
    · subst hc
      rw [trim, trim, hs, String.toList_ofList, List.dropWhile_cons_of_pos (by decide)]
    · rfl

end Trim

/-- For every pairing id and every code, the app reads what it makes of each when it trims it. -/
theorem tryParse_buildQRPayload (pid code : String) :
    PairingLink.tryParse (buildQRPayload pid code) =
      .ok (if (trim pid).isEmpty || (trim code).isEmpty then none else some ⟨trim pid, trim code⟩) := by
  rw [PairingLink.tryParse, trim_buildQRPayload, uri_tryParse]
  dsimp only
  rw [if_neg (by decide), queryParameters_link]
  have hpid : (Function.update (Function.update (Function.update (fun _ : String => (none : Option String)) "code"
      (some (dropBom code))) "pid" (some (dropBom pid))) "v" (some "1")) "pid" = some (dropBom pid) := rfl
  have hcode : (Function.update (Function.update (Function.update (fun _ : String => (none : Option String)) "code"
      (some (dropBom code))) "pid" (some (dropBom pid))) "v" (some "1")) "code" = some (dropBom code) := rfl
  show Except.ok _ = _
  rw [hpid, hcode, Option.map_some, Option.map_some, Option.getD_some, Option.getD_some, trim_dropBom, trim_dropBom]

/-- What the service encodes the app reads. -/
theorem pairing_link_round_trip (pid code : String) (hpid : pid ≠ "") (hcode : code ≠ "") (hpidTrimmed : Trimmed pid)
    (hcodeTrimmed : Trimmed code) : PairingLink.tryParse (buildQRPayload pid code) = .ok (some ⟨pid, code⟩) := by
  rw [tryParse_buildQRPayload, trim_of_trimmed hpidTrimmed, trim_of_trimmed hcodeTrimmed, if_neg]
  simp only [Bool.or_eq_true, String.isEmpty_iff, hpid, hcode, or_self, not_false_eq_true]

set_option maxRecDepth 8000 in
theorem pairing_link_round_trip_reserved :
    PairingLink.tryParse (buildQRPayload "a+b c&d=e%25#" "é€?") = .ok (some ⟨"a+b c&d=e%25#", "é€?"⟩) :=
  pairing_link_round_trip "a+b c&d=e%25#" "é€?" (by decide) (by decide) (by decide) (by decide)

end DeskSync.Mobile
