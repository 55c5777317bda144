import DeskSync.Agent.Input
import DeskSync.Mobile.Input

/-!
# Typing on the phone, executed by the agent

The events of the phone as the agent reads them, executed one after the other on a host with the US layout
on which nothing is held.

`types`: `typeText` types the characters `hidForChar` maps, in order; no event is refused, and nothing is
held afterwards. `typesOf` and `erases` say the same of a single character and of the backspace key.
-/

namespace DeskSync.Session.Typing

open Mobile (hidForUnit keyEventsForChar mappedChar mapped HidChar)
open Agent.Input

/-! ### Events across the wire -/

def agentModifiers (m : Mobile.Modifiers) : Modifiers := ⟨m.ctrl, m.alt, m.shift, m.metaKey⟩

def agentButton : Mobile.PointerButton → MouseButton
  | .left => .left
  | .right => .right
  | .middle => .middle

/-- The event of the agent that corresponds to one of the phone. -/
def agentEvent {F : Type} : Mobile.InputEvent F → InputEvent F
  | .mouseMove x y => .mouseMove x y
  | .mouseButton button pressed modifiers =>
    .mouseButton (agentButton button) pressed (agentModifiers modifiers)
  | .scroll dx dy => .scroll dx dy
  | .key code pressed modifiers => .key (.ofNat code.toNat) pressed (agentModifiers modifiers)
  | .clipboardText text => .clipboardText text

/-- The key of the host for a code of the phone. -/
def hostKey (code : ℤ) : Option Key := (mapHidKey (.ofNat code.toNat)).bind physicalToEnigo

/-! ### The two tables -/

/-- The key is neither a modifier nor backspace. -/
def Key.plain (k : Key) : Bool :=
  k ≠ .control ∧ k ≠ .alt ∧ k ≠ .shift ∧ k ≠ .metaKey ∧ k ≠ .backspace

/-- The code of a mapped unit is a plain key of the host, and its symbol is the unit's character. -/
def agree (unit : UInt16) : Bool :=
  match hidForUnit unit with
  | none => true
  | some m =>
    match hostKey m.code with
    | none => false
    | some k => Key.plain k ∧ symbol k m.shift = some (Char.ofNat unit.toNat)

theorem agree_ascii : ∀ n : Fin 128, agree (UInt16.ofNat n) = true := by
  decide +kernel

theorem agree_unit (unit : UInt16) : agree unit = true := by
  cases hm : hidForUnit unit with
  | none => simp only [agree, hm]
  | some m =>
    have hlt := Mobile.hidForUnit_ascii hm
    have hascii := agree_ascii ⟨unit.toNat, hlt⟩
    rwa [UInt16.ofNat_toNat] at hascii

/-- Character to code on the phone, and code to key on the agent. -/
theorem hostKey_of_mapped {unit : UInt16} {m : HidChar} (hm : hidForUnit unit = some m) :
    ∃ k, hostKey m.code = some k ∧ Key.plain k ∧ symbol k m.shift = some (Char.ofNat unit.toNat) := by
  have hagree := agree_unit unit
  unfold agree at hagree
  rw [hm] at hagree
  simp only at hagree
  split at hagree
  · cases hagree
  · next k hk => exact ⟨k, hk, (of_decide_eq_true hagree).1, (of_decide_eq_true hagree).2⟩

/-! ### One key -/

/-- A host on which nothing is held. -/
def idle (text : List Char) : Host := { text := text }

theorem calls_key {dims : ℤ × ℤ} {code : ℤ} {k : Key} (hk : hostKey code = some k) (pressed : Bool)
    (m : Mobile.Modifiers) : calls dims (agentEvent (.key code pressed m)) =
      .ok (chord (modifierKeys (agentModifiers m)) (.key k) pressed) := by
  unfold hostKey at hk
  simp only [agentEvent, calls, hk]

/-- Pressing and releasing. -/
theorem release_press (k : Key) (held : Held → Bool) (h : held (.key k) = false) :
    Function.update (Function.update held (.key k) true) (.key k) false = held := by
  rw [Function.update_idem, ← h, Function.update_eq_self]

/-- A key on its own: it goes down and up. -/
theorem run_key {dims : ℤ × ℤ} {code : ℤ} {k : Key} (hk : hostKey code = some k) (text : List Char) :
    Host.executeAll dims [agentEvent (.key code true {}), agentEvent (.key code false {})] (idle text) =
      ([.ok (), .ok ()], idle ((idle text).typed k)) := by
  simp only [Host.executeAll, run_execute (calls_key hk _ _)]
  have hmods : modifierKeys (agentModifiers {}) = [] := rfl
  simp only [hmods, chord, List.map_nil, List.nil_append, List.reverse_nil, if_true, Bool.false_eq_true,
    if_false, List.foldl_cons, List.foldl_nil, Host.apply]
  refine Prod.ext rfl ?_
  simp only [idle, Host.mk.injEq, and_true]
  exact release_press k _ rfl

/-- A host on which Shift is held. -/
def shifting (text : List Char) : Host :=
  { held := Function.update (fun _ => false) (.key .shift) true, text := text }

theorem shifting_held (text : List Char) (x : Held) :
    (shifting text).held x = decide (x = .key .shift) := by
  show Function.update (fun _ => false) _ true x = _
  rw [Function.update_apply]
  split
  · next h => rw [h, decide_eq_true rfl]
  · next h => rw [decide_eq_false h]

/-- Where no shortcut is held, a key other than backspace types its symbol. -/
theorem typed_symbol {h : Host} {k : Key} (hctrl : h.held (.key .control) = false)
    (halt : h.held (.key .alt) = false) (hmeta : h.held (.key .metaKey) = false) (hback : k ≠ .backspace) :
    h.typed k = h.text ++ (symbol k (h.held (.key .shift))).toList := by
  rw [Host.typed, hctrl, halt, hmeta, if_neg (by decide), if_neg hback]

theorem apply_shift (text : List Char) : (idle text).apply (.key .shift .press) = shifting text := by
  have htyped : (idle text).typed .shift = text :=
    (typed_symbol rfl rfl rfl (by decide)).trans (List.append_nil text)
  rw [Host.apply, htyped]
  rfl

theorem shifting_typed {k : Key} (hback : k ≠ .backspace) (text : List Char) :
    (shifting text).typed k = text ++ (symbol k true).toList := by
  rw [typed_symbol (shifting_held text _) (shifting_held text _) (shifting_held text _) hback,
    shifting_held]
  rfl

/-- A key with Shift held: Shift goes down before it, and up after it. -/
theorem run_shifted {dims : ℤ × ℤ} {code : ℤ} {k : Key} (hk : hostKey code = some k) (hplain : Key.plain k)
    (text : List Char) :
    Host.executeAll dims [agentEvent (.key code true { shift := true }),
      agentEvent (.key code false { shift := true })] (idle text) =
      ([.ok (), .ok ()], idle (text ++ (symbol k true).toList)) := by
  simp only [Key.plain, decide_eq_true_eq] at hplain
  obtain ⟨-, -, hshift, -, hback⟩ := hplain
  have hne : Held.key k ≠ .key .shift := fun h => hshift (Held.key.inj h)
  have hmods : modifierKeys (agentModifiers { shift := true }) = [.shift] := rfl
  simp only [Host.executeAll, run_execute (calls_key hk _ _), hmods, chord, List.map_cons, List.map_nil,
    List.cons_append, List.nil_append, List.reverse_cons, List.reverse_nil, if_true, Bool.false_eq_true,
    if_false, List.foldl_cons, List.foldl_nil, apply_shift]
  refine Prod.ext rfl ?_
  simp only [Host.apply, shifting_typed hback]
  have hoff (t : List Char) : (shifting t).held (.key k) = false :=
    (shifting_held t _).trans (decide_eq_false hne)
  have hkey : Function.update (Function.update (shifting text).held (.key k) true) (.key k) false =
      (shifting text).held := release_press k _ (hoff _)
  have hup : Function.update (shifting text).held (.key .shift) false = (idle text).held :=
    release_press .shift _ rfl
  rw [hkey, hup]
  rfl

/-- A mapped unit types its character; another types nothing. -/
theorem typesOf (dims : ℤ × ℤ) (unit : UInt16) (text : List Char) :
    (∀ a ∈ (Host.executeAll dims ((keyEventsForChar [unit]).map agentEvent) (idle text)).1, a = .ok ()) ∧
      (Host.executeAll dims ((keyEventsForChar [unit]).map agentEvent) (idle text)).2 =
        idle (text ++ (mappedChar [unit]).toList) := by
  cases hm : hidForUnit unit with
  | none =>
    have hevents : keyEventsForChar [unit] = [] := by rw [keyEventsForChar, Mobile.hidForChar, hm]
    have hchar : mappedChar [unit] = none := by rw [mappedChar, hm]; rfl
    rw [hevents, hchar]
    exact ⟨fun a ha => absurd ha List.not_mem_nil, congrArg idle (List.append_nil text).symm⟩
  | some m =>
    obtain ⟨k, hk, hplain, hsymbol⟩ := hostKey_of_mapped hm
    obtain ⟨code, shift⟩ := m
    have hevents : (keyEventsForChar [unit]).map agentEvent =
        [agentEvent (.key code true { shift := shift }), agentEvent (.key code false { shift := shift })] := by
      rw [keyEventsForChar, Mobile.hidForChar, hm]
      rfl
    have hchar : mappedChar [unit] = symbol k shift := by
      rw [mappedChar, hm, hsymbol]
      rfl
    have hrun : Host.executeAll dims [agentEvent (.key code true { shift := shift }),
        agentEvent (.key code false { shift := shift })] (idle text) =
        ([.ok (), .ok ()], idle (text ++ (symbol k shift).toList)) := by
      cases shift with
      | true => exact run_shifted hk hplain text
      | false =>
        rw [run_key hk text]
        simp only [Key.plain, decide_eq_true_eq] at hplain
        simp [Host.typed, idle, hplain.2.2.2.2]
    rw [hevents, hchar, hrun]
    exact ⟨fun a ha => by simpa using ha, rfl⟩

/-- Backspace takes the last character away. -/
theorem erases (dims : ℤ × ℤ) (text : List Char) :
    (Host.executeAll dims ((Mobile.sendKey Mobile.HidKey.backspace).map agentEvent) (idle text)).2 =
      idle text.dropLast := by
  have hk : hostKey Mobile.HidKey.backspace = some .backspace := by decide
  exact congrArg Prod.snd (run_key hk text)

/-! ### A text -/

/-- From a host on which nothing is held, `typeText` types what is mapped, and leaves nothing held. -/
theorem typeText_executed (dims : ℤ × ℤ) (text : List UInt16) (before : List Char) :
    (∀ a ∈ (Host.executeAll dims ((Mobile.typeText text).map agentEvent) (idle before)).1, a = .ok ()) ∧
      (Host.executeAll dims ((Mobile.typeText text).map agentEvent) (idle before)).2 =
        idle (before ++ mapped text) := by
  rw [Mobile.typeText_eq, Mobile.mapped_eq]
  induction text generalizing before with
  | nil => simp [Host.executeAll]
  | cons unit text ih =>
    obtain ⟨hok, hhost⟩ := typesOf dims unit before
    obtain ⟨hok', hhost'⟩ := ih (before ++ (mappedChar [unit]).toList)
    rw [List.flatMap_cons, List.map_append, executeAll_append, hhost]
    refine ⟨fun a ha => ?_, ?_⟩
    · rcases List.mem_append.1 ha with ha | ha
      · exact hok a ha
      · exact hok' a ha
    · rw [hhost', List.append_assoc, List.filterMap_cons]
      cases mappedChar [unit] <;> rfl

/-- Every event of `typeText` is executed, the host types the mapped characters in order, and nothing is
held afterwards. -/
theorem types (dims : ℤ × ℤ) (text : List UInt16) :
    (∀ a ∈ (Host.executeAll dims ((Mobile.typeText text).map agentEvent) {}).1, a = .ok ()) ∧
      (Host.executeAll dims ((Mobile.typeText text).map agentEvent) {}).2.text = mapped text ∧
        ∀ x, (Host.executeAll dims ((Mobile.typeText text).map agentEvent) {}).2.held x = false := by
  obtain ⟨hok, hhost⟩ := typeText_executed dims text []
  refine ⟨hok, ?_, fun x => ?_⟩
  · exact congrArg Host.text hhost
  · exact congrFun (congrArg Host.held hhost) x

end DeskSync.Session.Typing
