import Mathlib.Data.List.TakeWhile
import LibraLive.Formatters

/-!
# The whole text

`CC_FORMAT` leaves room for the terminator and tries again with a buffer that is one character longer than the text. `log` takes
a text for whole that is as long as the room it gave it, terminator included, and makes the next buffer just that large: the last
character is lost then, and with it the newline, which comes after the terminator.
-/

namespace LibraLive

namespace Formatters

/-- Both formatters deliver the text, `log` with a newline, however long it is allowed to run on. -/
structure WholeText (text : List UInt8) (memory : Nat → Option (Nat → UInt8)) : Prop where
  ccFormat : CC_FORMAT text = some text
  log : ∃ fuel, ∀ more, log text memory (fuel + more) = some (.printed (text ++ [0x0a]))

/-- The characters of a text up to the first that ends a string. -/
def upToNul (text : List UInt8) : List UInt8 := text.takeWhile (· ≠ 0)

variable {text buf : List UInt8} {memory : Nat → Option (Nat → UInt8)} {n : Nat}

/-! ## Buffers -/

theorem cString_append (xs ys : List UInt8) : cString (xs ++ 0 :: ys) = some (upToNul xs) := by
  have hnul : (xs ++ 0 :: ys).takeWhile (· ≠ 0) = xs.takeWhile (· ≠ 0) := by
    induction xs with
    | nil => simp
    | cons x xs ih =>
      rw [List.cons_append, List.takeWhile_cons, List.takeWhile_cons, ih]
  rw [cString, if_pos (List.mem_append_right _ List.mem_cons_self), hnul]
  rfl

/-- A text is printed as it is when it has no terminator within. -/
theorem upToNul_eq : upToNul text = text ↔ 0 ∉ text := by
  unfold upToNul
  rw [List.takeWhile_eq_self_iff]
  constructor
  · intro h hmem
    exact absurd (h 0 hmem) (by simp)
  · intro h x hx
    exact decide_eq_true fun h0 => h (h0 ▸ hx)

theorem length_upToNul_le (text : List UInt8) : (upToNul text).length ≤ text.length := (List.takeWhile_sublist _).length_le

/-- What `vsnprintf` leaves in a buffer that is as large as it is told at least. -/
theorem vsnprintf_eq (hn : 0 < n) (hbuf : n ≤ buf.length) (htext : (text.length : Int) < 0x80000000) :
    vsnprintf buf n text = some ((text.length : Int), text.take (n - 1) ++ 0 :: buf.drop (min text.length (n - 1) + 1)) := by
  have hfits : CInt.Fits text.length := ⟨by omega, by omega⟩
  have hstored : (text.take (n - 1) ++ [0]).length = min text.length (n - 1) + 1 := by
    rw [List.length_append, List.length_take, List.length_singleton, Nat.min_comm]
  unfold vsnprintf
  simp only [if_neg hn.ne', hstored, if_pos hfits]
  rw [if_pos (by omega), List.append_assoc]
  rfl

theorem put_eq {i : Nat} (c : UInt8) (h : i < buf.length) : put buf i c = some (buf.set i c) := if_pos ⟨by omega, by omega⟩

/-- The whole text is in the buffer, with room for two characters after it. -/
theorem logPrint_whole {rest : List UInt8} (hrest : 0 < rest.length) :
    logPrint (text ++ 0 :: rest) text.length = some (upToNul (text ++ [0x0a])) := by
  obtain ⟨c, rest, rfl⟩ := List.exists_cons_of_length_pos hrest
  have hsucc : (text.length : Int) + 1 = ((text.length + 1 : Nat) : Int) := by push_cast; rfl
  have hafter : (text ++ 0x0a :: c :: rest).set (text.length + 1) 0 = (text ++ [0x0a]) ++ 0 :: rest := by
    rw [List.set_append_right _ _ (by omega)]
    simp
  unfold logPrint
  rw [put_eq _ (by simp), hsucc]
  simp only [Option.bind_eq_bind, Option.bind_some]
  rw [List.set_append_right _ _ le_rfl, Nat.sub_self, List.set_cons_zero, put_eq _ (by simp)]
  simp only [Option.bind_some]
  rw [hafter, cString_append]

/-- The terminator is before the place of the newline. -/
theorem logPrint_cut {xs rest : List UInt8} {i : Nat} (hi : xs.length < i) (hlt : i + 1 < xs.length + 1 + rest.length) :
    logPrint (xs ++ 0 :: rest) i = some (upToNul xs) := by
  have hset : ∀ (ys : List UInt8) (j : Nat) (c : UInt8), xs.length < j →
      (xs ++ 0 :: ys).set j c = xs ++ 0 :: ys.set (j - xs.length - 1) c := by
    intro ys j c hj
    obtain ⟨k, rfl⟩ := Nat.exists_eq_add_of_lt hj
    rw [List.set_append_right _ _ (by omega)]
    have hindex : xs.length + k + 1 - xs.length = k + 1 := by omega
    rw [hindex, List.set_cons_succ]
    simp
  have hsucc : (i : Int) + 1 = ((i + 1 : Nat) : Int) := by push_cast; rfl
  unfold logPrint
  rw [put_eq _ (by simp; omega), hsucc]
  simp only [Option.bind_eq_bind, Option.bind_some]
  rw [hset _ _ _ hi, put_eq _ (by simp; omega)]
  simp only [Option.bind_some]
  rw [hset _ _ _ (by omega), cString_append]

/-! ## `log` -/

/-- A pass with a buffer that gives the text room for `n` characters and the terminator among them. -/
theorem logLoop_pass {content : Nat → UInt8} {fuel pass : Nat} (hmem : memory pass = some content) (hn : 0 < n)
    (htext : (text.length : Int) < 0x7fffffff - 3) : logLoop text memory (fuel + 1) pass (n + 3 : Nat) =
      if text.length < n then some (.printed (upToNul (text ++ [0x0a])))
      else if text.length = n then some (.printed (upToNul (text.take (n - 1))))
      else logLoop text memory fuel (pass + 1) (text.length + 3 : Nat) := by
  have hroom : (((n + 3 : Nat) : Int) - 3).toNat = n := by omega
  have hlength : ((List.range ((n + 3 : Nat) : Int).toNat).map content).length = n + 3 := by
    rw [List.length_map, List.length_range, Int.toNat_natCast]
  have hnonneg : (0 : Int) ≤ text.length := by omega
  have hlast : (n : Int) = ((n + 3 : Nat) : Int) - 3 := by push_cast; omega
  rw [logLoop, hmem]
  dsimp only
  rw [hroom, vsnprintf_eq hn (by omega) (by omega)]
  dsimp only
  rw [if_pos hnonneg, ← hlast]
  obtain hlt | rfl | hgt := Nat.lt_trichotomy text.length n
  · have htake : text.take (n - 1) = text := List.take_of_length_le (by omega)
    rw [if_pos hlt, if_pos (by omega), htake, logPrint_whole]
    · rfl
    · rw [List.length_drop, hlength]
      omega
  · have htake : (text.take (text.length - 1)).length = text.length - 1 := by simp
    rw [if_neg (Nat.lt_irrefl _), if_pos rfl, if_pos le_rfl, logPrint_cut]
    · rfl
    · omega
    · rw [List.length_drop, hlength]
      omega
  · have hfits : CInt.Fits (text.length + 3) := ⟨by omega, by omega⟩
    have hresult : CInt.result (text.length + 3) = some ((text.length + 3 : Nat) : Int) := by
      rw [CInt.result, if_pos hfits]
      rfl
    rw [if_neg (by omega), if_neg (by omega), if_neg (by omega), hresult]
    rfl

/-- `log` ends in the second pass at the latest, and never writes beyond a buffer. -/
theorem log_eq (htext : (text.length : Int) < 0x7fffffff - 3) (fuel : Nat) : log text memory (fuel + 2) =
    if (memory 0).isNone then some .returned
    else if text.length < 16381 then some (.printed (upToNul (text ++ [0x0a])))
    else if text.length = 16381 then some (.printed (upToNul (text.take 16380)))
    else if (memory 1).isNone then some .returned
    else some (.printed (upToNul (text.take (text.length - 1)))) := by
  have hsize : MAX_LOG_LENGTH = ((16381 + 3 : Nat) : Int) := by decide
  have hnone : ∀ fuel pass bufferSize, memory pass = none → logLoop text memory (fuel + 1) pass bufferSize = some .returned := by
    intro fuel pass bufferSize h
    rw [logLoop, h]
  unfold log
  cases hfirst : memory 0 with
  | none => rw [hnone _ _ _ hfirst]; rfl
  | some content =>
    rw [hsize, logLoop_pass hfirst (by decide) htext]
    simp only [Option.isNone_some, Bool.false_eq_true, if_false]
    obtain hlt | heq | hgt := Nat.lt_trichotomy text.length 16381
    · simp only [if_pos hlt]
    · simp only [if_neg (show ¬ text.length < 16381 by omega), if_pos heq]
    · simp only [if_neg (show ¬ text.length < 16381 by omega), if_neg (show ¬ text.length = 16381 by omega)]
      cases hsecond : memory 1 with
      | none => rw [hnone _ _ _ hsecond]; rfl
      | some content' =>
        rw [logLoop_pass hsecond (by omega) htext, if_neg (Nat.lt_irrefl _), if_pos rfl]
        rfl

/-- The text and the newline are printed exactly if the first buffer is found and gives them room, and the text has no
terminator within. -/
theorem log_iff (htext : (text.length : Int) < 0x7fffffff - 3) :
    (∃ fuel, ∀ more, log text memory (fuel + more) = some (.printed (text ++ [0x0a]))) ↔
      text.length ≤ 16380 ∧ 0 ∉ text ∧ (memory 0).isSome := by
  constructor
  · rintro ⟨fuel, h⟩
    have hlog := h 2
    rw [log_eq htext] at hlog
    have hshort : ∀ k, upToNul (text.take k) ≠ text ++ [0x0a] := by
      intro k heq
      have hle := (length_upToNul_le (text.take k)).trans (List.length_take_le _ _)
      rw [heq, List.length_append, List.length_singleton] at hle
      have hle' := length_upToNul_le (text.take k)
      rw [heq, List.length_append, List.length_singleton, List.length_take] at hle'
      omega
    split_ifs at hlog with hnone hlt hlimit hnone'
    · cases hlog
    · have hwhole := upToNul_eq.mp (LogEnd.printed.inj (Option.some.inj hlog))
      refine ⟨by omega, fun hmem => hwhole (List.mem_append_left _ hmem), ?_⟩
      simpa [Option.isSome_iff_ne_none] using hnone
    · exact absurd (LogEnd.printed.inj (Option.some.inj hlog)) (hshort _)
    · cases hlog
    · exact absurd (LogEnd.printed.inj (Option.some.inj hlog)) (hshort _)
  · rintro ⟨hle, hnul, hfound⟩
    refine ⟨2, fun more => ?_⟩
    have hwhole : upToNul (text ++ [0x0a]) = text ++ [0x0a] := upToNul_eq.mpr (by simpa using hnul)
    rw [Nat.add_comm, log_eq htext, if_neg (by simpa [Option.isSome_iff_ne_none] using hfound), if_pos (by omega), hwhole]

/-! ## `CC_FORMAT` -/

@[simp] theorem length_resize (str : List UInt8) (n : Nat) : (resize str n).length = n := by
  simp [resize]
  omega

/-- A pass with a buffer of `n` characters, the terminator among them. -/
theorem ccFormatLoop_pass {passes : Nat} {j : Int} {str : List UInt8} (hn : 0 < n) (htext : (text.length : Int) < 0x7fffffff) :
    ∃ str', ccFormatLoop text (passes + 1) j n str =
      if text.length < n then some text else ccFormatLoop text passes (j + 1) (text.length + 1 : Nat) str' := by
  have hsize : ((n : Int)).toNat = n := Int.toNat_natCast n
  have hnonneg : (0 : Int) ≤ text.length := by omega
  rw [ccFormatLoop, hsize, vsnprintf_eq hn (by simp) (by omega)]
  simp only [Option.bind_eq_bind, Option.bind_some]
  refine ⟨text.take (n - 1) ++ 0 :: (resize str n).drop (min text.length (n - 1) + 1), ?_⟩
  by_cases hlt : text.length < n
  · have htake : text.take (n - 1) = text := List.take_of_length_le (by omega)
    have hlength : ((text.length : Int)).toNat = text.length := Int.toNat_natCast _
    rw [if_pos ⟨hnonneg, by omega⟩, if_pos hlt, htake, hlength, resize, List.take_left]
    simp
  · have hresult : CInt.result (text.length + 1) = some ((text.length + 1 : Nat) : Int) := by
      rw [CInt.result, if_pos ⟨by omega, by omega⟩]
      rfl
    rw [if_neg (by omega), if_neg hlt, if_pos (by omega), hresult]
    rfl

/-- `CC_FORMAT` returns the text, in the second pass at the latest. -/
theorem ccFormat_eq (htext : (text.length : Int) < 0x7fffffff) : CC_FORMAT text = some text := by
  obtain ⟨str, hfirst⟩ := @ccFormatLoop_pass text 1024 7 0 [] (by decide) htext
  obtain ⟨str', hsecond⟩ := @ccFormatLoop_pass text (text.length + 1) 6 (0 + 1) str (by omega) htext
  show ccFormatLoop text (7 + 1) 0 ((1024 : Nat) : Int) [] = some text
  rw [hfirst]
  split
  · rfl
  · show ccFormatLoop text (6 + 1) _ _ _ = _
    rw [hsecond, if_pos (Nat.lt_succ_self _)]

/-- Both formatters deliver the whole text exactly if `log` finds its first buffer and the text fits into that, with the terminator
and three characters to spare, and has no terminator within. -/
theorem wholeText_iff (text : List UInt8) (memory : Nat → Option (Nat → UInt8)) (htext : CInt.Fits (text.length + 4)) :
    WholeText text memory ↔ text.length ≤ 16380 ∧ 0 ∉ text ∧ (memory 0).isSome := by
  obtain ⟨-, hle⟩ := htext
  rw [← log_iff (by omega)]
  exact ⟨fun h => h.log, fun h => ⟨ccFormat_eq (by omega), h⟩⟩

/-- Memory is found, and has only zeros. -/
def zeros : Nat → Option (Nat → UInt8) := fun _ => some fun _ => 0

/-- A short text. -/
theorem wholeText_example : WholeText [0x6f, 0x6b] zeros :=
  (wholeText_iff [0x6f, 0x6b] zeros (by decide)).mpr ⟨by decide, by decide, rfl⟩

/-- Of a text that is just too long, the last character is lost, and the newline. -/
theorem last_character_lost : ¬ ∀ (text : List UInt8) (memory : Nat → Option (Nat → UInt8)), CInt.Fits (text.length + 4) →
    0 ∉ text → (∀ pass, (memory pass).isSome) → WholeText text memory := by
  intro h
  have hlength : (List.replicate 16381 (0x78 : UInt8)).length = 16381 := List.length_replicate
  have hfits : CInt.Fits (((List.replicate 16381 (0x78 : UInt8)).length : Int) + 4) := by
    rw [hlength]
    decide
  have hwhole := h (List.replicate 16381 0x78) zeros hfits (fun h => absurd (List.eq_of_mem_replicate h) (by decide))
    fun _ => rfl
  have hle := (log_iff (by rw [hlength]; decide)).mp hwhole.log
  omega

end Formatters

end LibraLive
