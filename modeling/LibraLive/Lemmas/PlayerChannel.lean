import LibraLive.Lemmas.ChannelPhase
import LibraLive.Lemmas.PlayerStep

/-!
# The channels inside the player

A step of the player leaves a channel alone, creates it, deletes it or is a step of it (`channel_change`). So what every run
of a channel keeps, the channels of a player keep (`component`), also when the runs are restricted (`component_restrict`).
-/

namespace LibraLive

/-! ## Steps of a channel inside a step of the player -/

/-- A step of a thread of the channel is no call from outside. -/
theorem ChannelAct.ne_of_own {b : ChannelAct} (h : b.own = true) : b ≠ .start ∧ b ≠ .stop := by
  cases b <;> simp [ChannelAct.own] at h ⊢

namespace Player

variable {s s' : Player}

/-- The step of the player that a step of the channel `c` is part of. -/
def Calls (s s' : Player) (a : PlayerAct) (k : Kind) (c : Channel) : ChannelAct → Prop
  | .start => s.prepare = .start k.startPc
  | .stop => s.demux = k.stopPc
  | .push packet => s.demux = .route packet ∧ packet.stream_index = c.id ∧ s'.demux = .whileTest
  | .setAudioChannel channel =>
    s.prepare = .start .setAudioChannel ∧ k = .video ∧ channel = s.audioChannel.isSome
  | b => a = .channel k b

/-- How a channel of the player after a step came about. -/
inductive ChannelChange (s s' : Player) (a : PlayerAct) (k : Kind) (c' : Channel) : Prop where
  | same : s.channel k = some c' → ChannelChange s s' a k c'
  | created (i : Nat) : s.prepare = .makeChannel i → s.streams[i]? = some k.mediaType → c' = Channel.new k i →
      ChannelChange s s' a k c'
  | stepped (c : Channel) (b : ChannelAct) : s.channel k = some c → c.act b = some c' → Calls s s' a k c b →
      ChannelChange s s' a k c'

/-- A thread of a channel calls its own steps. -/
theorem calls_own {a : PlayerAct} {k : Kind} {c : Channel} {b : ChannelAct} (h : b.own = true) :
    Calls s s' a k c b ↔ a = .channel k b := by
  cases b <;> first | rfl | cases h

/-- A step that replaces one channel by what a step of it leads to changes no other. -/
theorem change_setChannel {a : PlayerAct} {k k' : Kind} {c c₁ c' : Channel} {b : ChannelAct} (hc : s.channel k = some c)
    (hact : c.act b = some c₁) (hcall : Calls s s' a k c b)
    (h : (s.setChannel k (some c₁)).channel k' = some c') : ChannelChange s s' a k' c' := by
  rcases channel_setChannel_cases h with ⟨hk, he⟩ | ⟨-, hs⟩
  · subst hk
    obtain rfl := Option.some.inj he
    exact .stepped c b hc hact hcall
  · exact .same hs

/-- A step of the player leaves a channel alone, creates it or is a step of it. -/
theorem channel_change {a : PlayerAct} (h : PlayerStep s a s') {k : Kind} {c' : Channel}
    (hc' : s'.channel k = some c') : ChannelChange s s' a k c' := by
  cases h with
  | prepare h =>
    cases h with
    | makeChannel i k₁ hpc hi =>
      have hset := (channel_congr (s := s.setChannel k₁ (some (Channel.new k₁ i))) rfl rfl k).symm.trans hc'
      rcases channel_setChannel_cases hset with ⟨hk, he⟩ | ⟨-, hs⟩
      · subst hk
        exact .created i hpc hi (Option.some.inj he).symm
      · exact .same hs
    | setAudioChannel c c₁ hpc hc hact =>
      have hset := (channel_congr (s := s.setChannel .video (some c₁)) rfl rfl k).symm.trans hc'
      exact change_setChannel (k := .video) hc hact ⟨hpc, rfl, rfl⟩ hset
    | startChannel k₁ c c₁ hpc hc hact => exact change_setChannel (b := .start) hc hact hpc hc'
    | _ => exact .same ((channel_congr (s := s) rfl rfl k).symm.trans hc')
  | demux h =>
    cases h with
    | routeTo k₁ packet c hpc hc hid _ =>
      have hset := (channel_congr (s := s.setChannel k₁ (some (c.pushPacket packet))) rfl rfl k).symm.trans hc'
      exact change_setChannel (b := .push packet) hc rfl ⟨hpc, hid, rfl⟩ hset
    | stopChannel k₁ c c₁ hpc hc hact => exact change_setChannel (b := .stop) hc hact hpc hc'
    | _ => exact .same ((channel_congr (s := s) rfl rfl k).symm.trans hc')
  | stopper h =>
    cases h with
    | deleteChannel k₁ _ =>
      have hset := (channel_congr (s := s.setChannel k₁ none) rfl rfl k).symm.trans hc'
      rcases channel_setChannel_cases hset with ⟨-, he⟩ | ⟨-, hs⟩
      · cases he
      · exact .same hs
    | _ => exact .same ((channel_congr (s := s) rfl rfl k).symm.trans hc')
  | ui h =>
    cases h <;> exact .same ((channel_congr (s := s) rfl rfl k).symm.trans hc')
  | channel hown hc hact => exact change_setChannel hc hact ((calls_own hown).mpr rfl) hc'

/-- A player that has not crashed has no channel that has. -/
theorem crash_eq_none (h : s.crashed = false) {k : Kind} {c : Channel} (hc : s.channel k = some c) : c.crash = none := by
  rw [crashed, Bool.or_eq_false_iff, Bool.or_eq_false_iff] at h
  obtain ⟨-, ha, hv⟩ := h
  cases k with
  | audio =>
    rw [channel] at hc
    simpa [hc] using ha
  | video =>
    rw [channel] at hc
    simpa [hc] using hv

/-- Where a player starts, it has no channels. -/
theorem channel_new (streams : List AVMediaType) (k : Kind) : (Player.new streams).channel k = none := by
  cases k <;> rfl

/-- A channel of a player takes the steps of a channel. -/
theorem component (streams : List AVMediaType) (k : Kind) :
    Lts.Component (Player.lts streams) (Channel.lts k) (·.channel k) where
  init := by
    rintro s rfl c hc
    rw [channel_new] at hc
    cases hc
  step := by
    intro s a s' _ hs c' hc'
    obtain ⟨hcr, -, hs⟩ := step_cases hs
    rcases channel_change hs hc' with h | ⟨i, -, -, rfl⟩ | ⟨c, b, hc, hact, -⟩
    · exact Or.inl h
    · exact Or.inr (Or.inl ⟨i, rfl⟩)
    · exact Or.inr (Or.inr ⟨c, b, hc, Channel.step_eq_some.mpr ⟨crash_eq_none hcr hc, hact⟩⟩)

/-- Under a condition on the steps of the player that puts a condition on the steps of a channel, the channel takes such
steps only. -/
theorem component_restrict (streams : List AVMediaType) (k : Kind) {P : Player → PlayerAct → Prop}
    {Q : Channel → ChannelAct → Prop}
    (hQ : ∀ s s' a c b, P s a → s.channel k = some c → Calls s s' a k c b → Q c b) :
    Lts.Component ((Player.lts streams).restrict P) ((Channel.lts k).restrict Q) (·.channel k) where
  init := (component streams k).init
  step := by
    rintro s a s' - ⟨hP, hs⟩ c' hc'
    obtain ⟨hcr, -, hs⟩ := step_cases hs
    rcases channel_change hs hc' with h | ⟨i, -, -, rfl⟩ | ⟨c, b, hc, hact, hcall⟩
    · exact Or.inl h
    · exact Or.inr (Or.inl ⟨i, rfl⟩)
    · exact Or.inr (Or.inr ⟨c, b, hc, hQ s s' a c b hP hc hcall, Channel.step_eq_some.mpr ⟨crash_eq_none hcr hc, hact⟩⟩)

end Player

end LibraLive
