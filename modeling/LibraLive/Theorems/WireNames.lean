import LibraLive.UdpManager

/-!
# The names on the wire

`sendMsg` writes the name that an entry of `CmdType` is declared with, and `dispatchMessage` compares with the name of the entry
itself. They differ in case, so neither knows the other's messages.
-/

namespace LibraLive

/-- What is written to an object and then to a text is found in the object that the text is parsed to. -/
structure JsonWriter.ReadBy {Obj : Type} (w : JsonWriter Obj) (p : Platform Obj) : Prop where
  parsed : ∀ obj, ∃ obj', p.JSONObject (w.toString obj) = some obj' ∧ (∀ key, p.opt obj' key = p.opt obj key) ∧
    ∀ key, p.optString obj' key = p.optString obj key
  put_same : ∀ obj key value, p.opt (w.put obj key value) key = some (.string value) ∧ p.optString (w.put obj key value) key = value
  put_other : ∀ obj key key' value, key ≠ key' → p.opt (w.put obj key value) key' = p.opt obj key' ∧
    p.optString (w.put obj key value) key' = p.optString obj key'

namespace UdpManager

variable {Obj : Type} {p : Platform Obj} {w : JsonWriter Obj} {msg : String} {obj : Obj}

/-- The call that a message asks for by the names that the commands are declared with. -/
def wireCall (p : Platform Obj) (obj : Obj) : Option CmdCall :=
  if p.opt obj "cmd" = some (.string CmdType.PLAY.parameter) then some (.onPlay (p.optString obj "url"))
  else if p.opt obj "cmd" = some (.string CmdType.STOP.parameter) then some .onStop
  else none

/-- No entry is declared with the name of an entry. -/
theorem parameter_ne_name (c c' : CmdType) : c.parameter ≠ c'.name := by
  cases c <;> cases c' <;> decide

/-- The callbacks that `dispatchMessage` calls, by the names of the entries. -/
theorem dispatchMessage_eq (hmsg : p.JSONObject msg = some obj) : dispatchMessage p true msg =
    some (if p.opt obj "cmd" = some (.string CmdType.PLAY.name) then some (.onPlay (p.optString obj "url"))
      else if p.opt obj "cmd" = some (.string CmdType.STOP.name) then some .onStop else none) := by
  unfold dispatchMessage
  rw [hmsg]
  dsimp only
  rw [if_pos rfl, if_pos rfl]
  split_ifs <;> rfl

/-- A message is dispatched as its command says exactly if its command is neither the name of an entry nor the one it is declared
with: then it is for nobody. -/
theorem dispatched_iff (p : Platform Obj) (msg : String) (obj : Obj) (hmsg : p.JSONObject msg = some obj) :
    dispatchMessage p true msg = some (wireCall p obj) ↔
      ∀ c : CmdType, p.opt obj "cmd" ≠ some (.string c.parameter) ∧ p.opt obj "cmd" ≠ some (.string c.name) := by
  have hapart : ∀ c c' : CmdType, p.opt obj "cmd" = some (.string c.parameter) → p.opt obj "cmd" ≠ some (.string c'.name) := by
    intro c c' h h'
    rw [h] at h'
    exact parameter_ne_name c c' (JsonValue.string.inj (Option.some.inj h'))
  rw [dispatchMessage_eq hmsg, Option.some.injEq]
  unfold wireCall
  constructor
  · intro h c
    by_contra hnot
    rw [not_and_or, not_not, not_not] at hnot
    rcases hnot with hparameter | hname
    · rw [if_neg (hapart c .PLAY hparameter), if_neg (hapart c .STOP hparameter)] at h
      cases c with
      | PLAY => rw [if_pos hparameter] at h; cases h
      | STOP =>
        rw [if_pos hparameter] at h
        split_ifs at h
    · rw [if_neg fun hp => hapart .PLAY c hp hname, if_neg fun hp => hapart .STOP c hp hname] at h
      cases c with
      | PLAY => rw [if_pos hname] at h; cases h
      | STOP =>
        rw [if_pos hname] at h
        split_ifs at h
  · intro h
    rw [if_neg (h .PLAY).2, if_neg (h .STOP).2, if_neg (h .PLAY).1, if_neg (h .STOP).1]

/-- What `sendMsg` sends asks for a call of `onPlay`, and is for nobody. -/
theorem sendMsg_unknown (h : w.ReadBy p) : ∃ obj, p.JSONObject (sendMsg w) = some obj ∧
    wireCall p obj = some (.onPlay "") ∧ dispatchMessage p true (sendMsg w) = some none := by
  obtain ⟨obj, hparsed, hopt, hoptString⟩ := h.parsed (w.put (w.put w.new "cmd" "play") "url" "")
  have hsent : p.JSONObject (sendMsg w) = some obj := hparsed
  have hcmd : p.opt obj "cmd" = some (.string CmdType.PLAY.parameter) := by
    rw [hopt, (h.put_other _ _ _ _ (by decide)).1, (h.put_same _ _ _).1]
    rfl
  have hurl : p.optString obj "url" = "" := by
    rw [hoptString, (h.put_same _ _ _).2]
  refine ⟨obj, hsent, ?_, ?_⟩
  · rw [wireCall, if_pos hcmd, hurl]
  · rw [dispatchMessage_eq hsent, if_neg (by rw [hcmd]; decide), if_neg (by rw [hcmd]; decide)]

/-- The text of an object with a command and an empty URL. -/
def cmdText (cmd : String) : String := "\x7b\"cmd\":\"" ++ cmd ++ "\",\"url\":\"\"\x7d"

/-- A platform that reads such texts, for some commands; an object is its command. -/
def cmdPlatform : Platform String where
  decode bytes := String.ofList (bytes.map fun b => Char.ofNat b.toNat)
  JSONObject msg := ["play", "stop", "pause"].find? (cmdText · = msg)
  opt cmd key := if key = "cmd" then some (.string cmd) else if key = "url" then some (.string "") else none
  optString cmd key := if key = "cmd" then cmd else ""

/-- A command that nobody has declared. -/
theorem dispatched_iff_example : dispatchMessage cmdPlatform true (cmdText "pause") = some (wireCall cmdPlatform "pause") := by
  have hmsg : cmdPlatform.JSONObject (cmdText "pause") = some "pause" := by decide
  refine (dispatched_iff cmdPlatform (cmdText "pause") "pause" hmsg).mpr fun c => ?_
  cases c <;> decide

/-- The message that `sendMsg` sends reaches no callback. -/
theorem play_lost : ¬ ∀ (p : Platform String) (msg obj : String), p.JSONObject msg = some obj →
    dispatchMessage p true msg = some (wireCall p obj) := by
  intro h
  have hmsg : cmdPlatform.JSONObject (cmdText "play") = some "play" := by decide
  have hcall := h cmdPlatform (cmdText "play") "play" hmsg
  exact absurd hcall (by decide)

end UdpManager

end LibraLive
