import LibraLive.Channel

/-!
# What one step of an output thread does

`OutputStep` lists the steps of `render` and of the threads that run `getPcm` by what they do to the frames queue, to the
frame in hand and to the record of frames that were output or dropped as late; `output_cases` shows that the two functions
take no other. `OutputKeeps` is what every step leaves alone.
-/

namespace LibraLive

/-- Between two frames. -/
def OutputPc.idle : OutputPc → Bool
  | .enter | .whileTest | .enqueue _ | .outstanding | .leave | .ended => true
  | _ => false

/-- The frame in hand is to be shown or converted. -/
def OutputPc.showing : OutputPc → Bool
  | .audioTime | .show | .convert => true
  | _ => false

attribute [simp] OutputPc.idle OutputPc.showing

/-- The part of a channel that no step of its output thread changes. -/
structure OutputKeeps (c c' : Channel) : Prop where
  kind : c'.kind = c.kind
  id : c'.id = c.id
  packets : c'.packets = c.packets
  framesState : c'.frames.state = c.frames.state
  framesAccepted : c'.frames.queue.accepted = c.frames.queue.accepted
  audioChannel : c'.audioChannel = c.audioChannel
  swrContext : c'.swrContext = c.swrContext
  ctl : c'.ctl = c.ctl
  decode : c'.decode = c.decode
  packet : c'.packet = c.packet
  frame : c'.frame = c.frame
  sent : c'.sent = c.sent

/-- The steps of an output thread. -/
inductive OutputStep (c c' : Channel) : Prop where
  | idle : c.output.idle = true → c'.output.idle = true ∨ c'.output = .pop .call →
      (c'.output = .leave → c.isPlaying = false) → (c.kind = .video → c'.output = .ended → c.output = .leave) →
      (c'.isPlaying = c.isPlaying ∨ (c.output = .leave ∧ c'.isPlaying = false)) → c'.frames = c.frames →
      c'.finished = c.finished → c'.crash = c.crash → OutputStep c c'
  | pop : c.output = .pop .call ∨ c.output = .pop .woken → c' = c.outputPop → OutputStep c c'
  | quit (r : Bool) : c.output = .pop (.returned r) → c.isPlaying = false →
      c'.output = .leave ∨ (c.kind = .audio ∧ c'.output = .enqueue 0) → c'.isPlaying = c.isPlaying →
      c'.frames = c.frames → c'.finished = c.finished → c'.crash = c.crash → OutputStep c c'
  | miss : c.output = .pop (.returned false) → c.isPlaying = true →
      c'.output = .whileTest ∨ c'.output = .convert → c'.isPlaying = c.isPlaying → c'.outFrame = c.outFrame →
      c'.frames = c.frames → c'.finished = c.finished → c'.crash = c.crash → OutputStep c c'
  | take : c.output = .pop (.returned true) → c.isPlaying = true → c'.output.showing = true →
      c'.isPlaying = c.isPlaying → c'.outFrame = c.outFrame → c'.frames = c.frames → c'.finished = c.finished →
      c'.crash = c.crash → OutputStep c c'
  | onTime : c.output = .audioTime → c'.output = .show → c'.isPlaying = c.isPlaying → c'.outFrame = c.outFrame →
      c'.frames = c.frames → c'.finished = c.finished → c'.crash = c.crash → OutputStep c c'
  | finish : c.output.showing = true → c'.output = .sync ∨ c'.output.idle = true → c'.output ≠ .leave →
      c'.output ≠ .ended → c'.isPlaying = c.isPlaying → c'.frames = c.frames →
      c'.finished = c.finished ++ c.outFrame.toList → c'.crash = c.crash → OutputStep c c'
  | sync : c.output = .sync → c' = { c.framesSync with output := .whileTest } → OutputStep c c'
  | crash (reason : Crash) : c.output.showing = true → c' = { c with crash := some reason } →
      (reason = .nullAudioChannel → c.kind = .video ∧ c.audioChannel = false) → OutputStep c c'

/-- `render` changes only what belongs to the output thread, and takes only the listed steps. -/
theorem VideoChannel.render_cases {c c' : Channel} {i : OutputInput} (hk : c.kind = .video)
    (h : VideoChannel.render c i = some c') : OutputKeeps c c' ∧ OutputStep c c' := by
  unfold VideoChannel.render at h
  split at h
  case h_1 ho =>
    cases h
    exact ⟨by constructor <;> rfl, .idle (by simp [ho]) (by simp) (by simp) (by simp) (Or.inl rfl) rfl rfl rfl⟩
  case h_2 ho =>
    cases h
    refine ⟨by constructor <;> rfl, ?_⟩
    rcases Bool.eq_false_or_eq_true c.isPlaying with hp | hp
    · exact .idle (by simp [ho]) (by simp [hp]) (by simp [hp]) (by simp [hp]) (Or.inl rfl) rfl rfl rfl
    · exact .idle (by simp [ho]) (by simp [hp]) (fun _ => hp) (by simp [hp]) (Or.inl rfl) rfl rfl rfl
  case h_3 ho =>
    cases h
    exact ⟨by constructor <;> first | rfl | simp [Channel.outputPop], .pop (Or.inl ho) rfl⟩
  case h_4 ho =>
    cases h
    exact ⟨by constructor <;> first | rfl | simp [Channel.outputPop], .pop (Or.inr ho) rfl⟩
  case h_5 ret ho =>
    cases h
    refine ⟨by constructor <;> rfl, ?_⟩
    rcases Bool.eq_false_or_eq_true c.isPlaying with hp | hp
    · cases ret with
      | true => exact .take ho hp (by simp [hp]) rfl rfl rfl rfl rfl
      | false => exact .miss ho hp (by simp [hp]) rfl rfl rfl rfl rfl
    · exact .quit ret ho hp (by simp [hp]) rfl rfl rfl rfl
  case h_6 ho =>
    split at h
    · rename_i ha
      cases h
      exact ⟨by constructor <;> rfl, .crash .nullAudioChannel (by simp [ho]) rfl (fun _ => ⟨hk, by simpa using ha⟩)⟩
    · split at h <;> cases h
      · exact ⟨by constructor <;> rfl, .finish (by simp [ho]) (by simp) (by simp) (by simp) rfl rfl rfl rfl⟩
      · exact ⟨by constructor <;> rfl, .onTime ho rfl rfl rfl rfl rfl rfl⟩
  case h_7 ho =>
    cases h
    refine ⟨?_, .sync ho rfl⟩
    constructor
    case framesAccepted => exact accepted_dropAvFrame c.frames.queue
    all_goals rfl
  case h_8 ho =>
    cases h
    exact ⟨by constructor <;> rfl, .finish (by simp [ho]) (by simp) (by simp) (by simp) rfl rfl rfl rfl⟩
  case h_9 ho =>
    cases h
    exact ⟨by constructor <;> rfl, .idle (by simp [ho]) (by simp) (by simp) (fun _ _ => ho) (Or.inr ⟨ho, rfl⟩) rfl rfl rfl⟩
  case h_10 => cases h

/-- The threads that run `getPcm` change only what belongs to the output thread, and take only the listed steps. -/
theorem AudioChannel.getPcm_cases {c c' : Channel} {i : OutputInput} (hk : c.kind = .audio)
    (h : AudioChannel.getPcm c i = some c') : OutputKeeps c c' ∧ OutputStep c c' := by
  unfold AudioChannel.getPcm at h
  have hv : c.kind ≠ .video := by simp [hk]
  split at h
  case h_1 ho =>
    split at h <;> cases h
    · exact ⟨by constructor <;> rfl, .idle (by simp [ho]) (by simp) (by simp) (by simp) (Or.inl rfl) rfl rfl rfl⟩
    · exact ⟨by constructor <;> rfl,
        .idle (by simp [ho]) (by simp) (by simp) (fun hc => absurd hc hv) (Or.inl rfl) rfl rfl rfl⟩
  case h_2 ho =>
    cases h
    exact ⟨by constructor <;> first | rfl | simp [Channel.outputPop], .pop (Or.inl ho) rfl⟩
  case h_3 ho =>
    cases h
    exact ⟨by constructor <;> first | rfl | simp [Channel.outputPop], .pop (Or.inr ho) rfl⟩
  case h_4 ret ho =>
    split at h <;> cases h
    · rename_i hp
      have hp : c.isPlaying = false := by simpa using hp
      cases ret with
      | true => exact ⟨by constructor <;> rfl, .quit true ho hp (Or.inr ⟨hk, rfl⟩) rfl rfl rfl rfl⟩
      | false => exact ⟨by constructor <;> rfl, .quit false ho hp (Or.inr ⟨hk, rfl⟩) rfl rfl rfl rfl⟩
    · rename_i hp
      have hp : c.isPlaying = true := by simpa using hp
      cases ret with
      | true => exact ⟨by constructor <;> rfl, .take ho hp rfl rfl rfl rfl rfl rfl⟩
      | false => exact ⟨by constructor <;> rfl, .miss ho hp (Or.inr rfl) rfl rfl rfl rfl rfl⟩
  case h_5 ho =>
    split at h
    · cases h
      exact ⟨by constructor <;> rfl, .crash .nullFrame (by simp [ho]) rfl (by simp)⟩
    · rename_i frame hf
      split at h <;> cases h
      · exact ⟨by constructor <;> rfl, .crash .freedSwrContext (by simp [ho]) rfl (by simp)⟩
      · exact ⟨by constructor <;> rfl, .finish (by simp [ho]) (by simp) (by simp) (by simp) rfl rfl
          (by simp [Channel.releaseOutFrame, hf]) rfl⟩
  case h_6 dataSize ho =>
    cases h
    refine ⟨by constructor <;> rfl, ?_⟩
    by_cases hd : 0 < dataSize
    · exact .idle (by simp [ho]) (by simp [hd]) (by simp [hd]) (by simp [hd]) (Or.inl rfl) rfl rfl rfl
    · exact .idle (by simp [ho]) (by simp [hd]) (by simp [hd]) (fun hc => absurd hc hv) (Or.inl rfl) rfl rfl rfl
  case h_7 ho =>
    cases h
    exact ⟨by constructor <;> rfl, .idle (by simp [ho]) (by simp) (by simp) (by simp) (Or.inl rfl) rfl rfl rfl⟩
  case h_8 => cases h

/-- Whatever the class of the channel, a step of its output thread is a listed one. -/
theorem output_cases {c c' : Channel} {i : OutputInput} (h : c.act (.output i) = some c') :
    OutputKeeps c c' ∧ OutputStep c c' := by
  cases hk : c.kind with
  | audio =>
    simp only [Channel.act, hk] at h
    exact AudioChannel.getPcm_cases hk h
  | video =>
    simp only [Channel.act, hk] at h
    exact VideoChannel.render_cases hk h

end LibraLive
