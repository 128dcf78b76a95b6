import Mathlib.Data.List.Sort
import LibraLive.Okhttp3.Huffman

/-!
# The tree of the Huffman code

What `addCode` does to a tree: the code it adds can be read off the tree afterwards (`spells_addCode`), and so can every code
that could before, unless one of the two begins with the other (`spells_of_addCode`); it comes through where no terminal node
is on its way (`addCode_of_clear`). The codes of the table do not begin with each other, so `buildTree` comes through and the
tree spells them all.
-/

namespace LibraLive

namespace Huffman

/-- The bits of the code of a byte. -/
def codeBits (b : UInt8) : List Bool := Bits.low (code b).1.testBit (code b).2

/-- The terminal node of a byte. -/
def leaf (b : UInt8) : Node := .terminal b (code b).2

/-- Reading the bits from the node on, eight at a time and the last ones with anything behind them, leads to the terminal
node. -/
inductive Spells (terminal : Node) : Node → List Bool → Prop where
  | last {children : UInt8 → Option Node} {r : List Bool} : r.length ≤ 8 →
      (∀ c, r <+: Bits.ofByte c → children c = some terminal) → Spells terminal (.internal children) r
  | next {children : UInt8 → Option Node} {child : Node} {c : UInt8} {r : List Bool} : r ≠ [] → children c = some child →
      Spells terminal child r → Spells terminal (.internal children) (Bits.ofByte c ++ r)

/-- No terminal node is on the way that the bits lead from the node. -/
inductive Clear : Node → List Bool → Prop where
  | last {children : UInt8 → Option Node} {r : List Bool} : r.length ≤ 8 → Clear (.internal children) r
  | next {children : UInt8 → Option Node} {c : UInt8} {r : List Bool} : r ≠ [] →
      (∀ child, children c = some child → Clear child r) → Clear (.internal children) (Bits.ofByte c ++ r)

/-- Neither list begins with the other one. -/
def Apart (r r' : List Bool) : Prop := ¬ r <+: r' ∧ ¬ r' <+: r

/-! ## Codes of more than eight bits -/

/-- The first eight bits of a code are the byte that `addCode` goes down by. -/
theorem low_eq_ofByte_append {v len : Nat} (h : 8 < len) :
    Bits.low v.testBit len = Bits.ofByte (UInt8.ofNat (v >>> (len - 8))) ++ Bits.low v.testBit (len - 8) := by
  have hadd := Bits.low_add v.testBit 8 (len - 8)
  rw [Nat.add_sub_cancel' (Nat.le_of_lt h)] at hadd
  rw [hadd]
  congr 1
  refine Bits.low_congr fun i hi => ?_
  rw [UInt8.toNat_ofNat', Nat.testBit_mod_two_pow, Nat.testBit_shiftRight, Nat.add_comm]
  simp [hi]

theorem low_ne_nil {v len : Nat} (h : 0 < len) : Bits.low v.testBit len ≠ [] := by
  intro hnil
  have hlen := congrArg List.length hnil
  rw [Bits.length_low, List.length_nil] at hlen
  omega

/-- A list of bits begins with one byte only. -/
theorem ofByte_append_inj {c c' : UInt8} {r r' : List Bool} (h : Bits.ofByte c ++ r = Bits.ofByte c' ++ r') :
    c = c' ∧ r = r' := by
  obtain ⟨hbyte, hrest⟩ := List.append_inj h (by simp)
  exact ⟨Bits.ofByte_injective hbyte, hrest⟩

/-- The bytes to which `addCode` gives the terminal node are those that begin with the rest of the code. -/
theorem filled_iff {v len : Nat} {c : UInt8} (h : len ≤ 8) :
    (v <<< (8 - len)) % 256 ≤ c.toNat ∧ c.toNat < (v <<< (8 - len)) % 256 + 1 <<< (8 - len) ↔
      Bits.low v.testBit len <+: Bits.ofByte c := by
  have hpow : 256 = 2 ^ len * 2 ^ (8 - len) := by rw [← Nat.pow_add, Nat.add_sub_cancel' h]
  have hpos : 0 < 2 ^ (8 - len) := Nat.two_pow_pos _
  rw [Bits.low_prefix_ofByte h, Nat.shiftLeft_eq, Nat.shiftLeft_eq, hpow, Nat.mul_mod_mul_right, Nat.one_mul,
    Nat.div_eq_iff hpos]
  generalize 2 ^ (8 - len) = q at hpos
  omega

/-! ## One code is added -/

section
variable {terminal node node' : Node} {v len : Nat}

/-- `addCode` comes back with an internal node that was one before. -/
theorem addCode_internal (h : addCode terminal v len node = some node') :
    ∃ children children', node = .internal children ∧ node' = .internal children' := by
  cases node with
  | terminal => simp [addCode] at h
  | internal children =>
    rw [addCode] at h
    split at h
    · obtain ⟨child, -, rfl⟩ := Option.map_eq_some_iff.mp h
      exact ⟨_, _, rfl, rfl⟩
    · cases h
      exact ⟨_, _, rfl, rfl⟩

/-- Afterwards the tree spells the code. -/
theorem spells_addCode (hlen : 0 < len) (h : addCode terminal v len node = some node') :
    Spells terminal node' (Bits.low v.testBit len) := by
  induction len using Nat.strongRecOn generalizing node node' with
  | ind len ih =>
    cases node with
    | terminal => simp [addCode] at h
    | internal children =>
      rw [addCode] at h
      by_cases hlong : 8 < len
      · rw [if_pos hlong] at h
        obtain ⟨child, hchild, rfl⟩ := Option.map_eq_some_iff.mp h
        rw [low_eq_ofByte_append hlong]
        exact .next (low_ne_nil (by omega)) (if_pos rfl) (ih (len - 8) (by omega) (by omega) hchild)
      · rw [if_neg hlong] at h
        cases h
        refine .last (by rw [Bits.length_low]; omega) fun c hc => ?_
        exact if_pos ((filled_iff (by omega)).mpr hc)

/-- A code that is apart from the one that is added can be read off the tree as before. -/
theorem spells_of_addCode {t : Node} {r : List Bool} (h : addCode terminal v len node = some node')
    (hs : Spells t node r) (hapart : Apart (Bits.low v.testBit len) r) : Spells t node' r := by
  induction len using Nat.strongRecOn generalizing node node' r with
  | ind len ih =>
    cases node with
    | terminal => simp [addCode] at h
    | internal children =>
      rw [addCode] at h
      by_cases hlong : 8 < len
      · rw [if_pos hlong] at h
        obtain ⟨child', hchild, rfl⟩ := Option.map_eq_some_iff.mp h
        rw [low_eq_ofByte_append hlong] at hapart
        cases hs with
        | last hr hall =>
          refine .last hr fun c hc => ?_
          have hne : c ≠ UInt8.ofNat (v >>> (len - 8)) := by
            rintro rfl
            exact hapart.2 (hc.trans (List.prefix_append _ _))
          rw [if_neg hne]
          exact hall c hc
        | @next _ child c r hne hc hs =>
          by_cases hbyte : c = UInt8.ofNat (v >>> (len - 8))
          · subst hbyte
            rw [hc] at hchild
            refine .next hne (if_pos rfl) (ih (len - 8) (by omega) hchild hs ?_)
            exact ⟨fun hp => hapart.1 (List.prefix_append_right_inj _ |>.mpr hp),
              fun hp => hapart.2 (List.prefix_append_right_inj _ |>.mpr hp)⟩
          · exact .next hne ((if_neg hbyte).trans hc) hs
      · rw [if_neg hlong] at h
        cases h
        have hkeep : ∀ c, ¬ Bits.low v.testBit len <+: Bits.ofByte c →
            (if (v <<< (8 - len)) % 256 ≤ c.toNat ∧ c.toNat < (v <<< (8 - len)) % 256 + 1 <<< (8 - len) then some terminal
              else children c) = children c := fun c hc => if_neg fun hf => hc ((filled_iff (by omega)).mp hf)
        cases hs with
        | last hr hall =>
          refine .last hr fun c hc => ?_
          refine (hkeep c fun hp => ?_).trans (hall c hc)
          rcases Nat.le_total (Bits.low v.testBit len).length r.length with hle | hle
          · exact hapart.1 (List.prefix_of_prefix_length_le hp hc hle)
          · exact hapart.2 (List.prefix_of_prefix_length_le hc hp hle)
        | next hne hc hs =>
          refine .next hne ((hkeep _ fun hp => ?_).trans hc) hs
          exact hapart.1 (hp.trans (List.prefix_append _ _))

/-- Nothing is in the way of a code in a new node. -/
theorem clear_new (v len : Nat) : Clear Node.new (Bits.low v.testBit len) := by
  by_cases hlong : 8 < len
  · rw [low_eq_ofByte_append hlong]
    exact .next (low_ne_nil (by omega)) fun child hc => by cases hc
  · exact .last (by rw [Bits.length_low]; omega)

/-- Where nothing is in its way, `addCode` comes through. -/
theorem addCode_of_clear (hclear : Clear node (Bits.low v.testBit len)) : ∃ node', addCode terminal v len node = some node' := by
  induction len using Nat.strongRecOn generalizing node with
  | ind len ih =>
    cases node with
    | terminal => cases hclear
    | internal children =>
      rw [addCode]
      by_cases hlong : 8 < len
      · rw [if_pos hlong]
        have hbelow : Clear ((children (UInt8.ofNat (v >>> (len - 8)))).getD Node.new) (Bits.low v.testBit (len - 8)) := by
          cases hc : children (UInt8.ofNat (v >>> (len - 8))) with
          | none => exact clear_new v (len - 8)
          | some child =>
            rw [low_eq_ofByte_append hlong] at hclear
            generalize hr : Bits.ofByte (UInt8.ofNat (v >>> (len - 8))) ++ Bits.low v.testBit (len - 8) = r at hclear
            cases hclear with
            | last hle =>
              rw [← hr, List.length_append, Bits.length_ofByte, Bits.length_low] at hle
              omega
            | next hne hall =>
              obtain ⟨rfl, hrest⟩ := ofByte_append_inj hr
              rw [hrest]
              exact hall child hc
        obtain ⟨child, hchild⟩ := ih (len - 8) (by omega) hbelow
        exact ⟨_, congrArg (Option.map _) hchild⟩
      · rw [if_neg hlong]
        exact ⟨_, rfl⟩

/-- Adding a code puts nothing in the way of one that is apart from it. -/
theorem clear_of_addCode {v' len' : Nat} (h : addCode terminal v len node = some node')
    (hclear : Clear node (Bits.low v'.testBit len')) (hapart : Apart (Bits.low v.testBit len) (Bits.low v'.testBit len')) :
    Clear node' (Bits.low v'.testBit len') := by
  induction len using Nat.strongRecOn generalizing node node' len' with
  | ind len ih =>
    obtain ⟨children, children', rfl, rfl⟩ := addCode_internal h
    by_cases hshort : len' ≤ 8
    · exact .last (by rw [Bits.length_low]; exact hshort)
    have hlong' : 8 < len' := by omega
    rw [low_eq_ofByte_append hlong'] at hclear hapart ⊢
    generalize hr : Bits.ofByte (UInt8.ofNat (v' >>> (len' - 8))) ++ Bits.low v'.testBit (len' - 8) = r at hclear
    cases hclear with
    | last hle =>
      rw [← hr, List.length_append, Bits.length_ofByte, Bits.length_low] at hle
      omega
    | next hne hall =>
      obtain ⟨rfl, rfl⟩ := ofByte_append_inj hr
      refine .next hne fun child hc => ?_
      rw [addCode] at h
      by_cases hlong : 8 < len
      · rw [if_pos hlong] at h
        obtain ⟨child', hchild, heq⟩ := Option.map_eq_some_iff.mp h
        obtain rfl := (Node.internal.inj heq).symm
        dsimp only at hc
        rw [low_eq_ofByte_append hlong] at hapart
        split at hc
        · rename_i hbyte
          obtain rfl := Option.some.inj hc
          rw [← hbyte] at hchild hapart
          refine ih (len - 8) (by omega) hchild ?_ ?_
          · cases hold : children (UInt8.ofNat (v' >>> (len' - 8))) with
            | none => exact clear_new v' (len' - 8)
            | some old => exact hall old hold
          · exact ⟨fun hp => hapart.1 (List.prefix_append_right_inj _ |>.mpr hp),
              fun hp => hapart.2 (List.prefix_append_right_inj _ |>.mpr hp)⟩
        · exact hall child hc
      · rw [if_neg hlong] at h
        obtain rfl := (Node.internal.inj (Option.some.inj h)).symm
        dsimp only at hc
        split at hc
        · rename_i hf
          exact absurd (((filled_iff (by omega)).mp hf).trans (List.prefix_append _ _)) hapart.1
        · exact hall child hc

end

/-! ## The codes of the table -/

/-- The code of a byte is a code of the table. -/
theorem length_codeBits (b : UInt8) : (codeBits b).length = (code b).2 := Bits.length_low _ _

theorem length_CODES : CODES.length = 256 := by decide +kernel

theorem length_CODE_LENGTHS : CODE_LENGTHS.length = 256 := by decide +kernel

/-- The code of a byte stands in the table at its place. -/
theorem getElem_code (b : UInt8) : (CODES.zip CODE_LENGTHS)[b.toNat]? = some (code b) := by
  have hcodes : b.toNat < CODES.length := length_CODES ▸ b.toNat_lt
  have hlengths : b.toNat < CODE_LENGTHS.length := length_CODE_LENGTHS ▸ b.toNat_lt
  rw [List.getElem?_zip_eq_some, code, List.getD_eq_getElem _ _ hcodes, List.getD_eq_getElem _ _ hlengths]
  exact ⟨List.getElem?_eq_getElem hcodes, List.getElem?_eq_getElem hlengths⟩

set_option maxRecDepth 4000 in
/-- A code has at least five bits and at most thirty, and none above them. -/
theorem table_bounds : ∀ c ∈ CODES.zip CODE_LENGTHS, (5 ≤ c.2 ∧ c.2 ≤ 30) ∧ c.1 < 2 ^ c.2 := by
  decide +kernel

theorem code_length (b : UInt8) : 5 ≤ (code b).2 ∧ (code b).2 ≤ 30 :=
  (table_bounds _ (List.mem_of_getElem? (getElem_code b))).1

theorem code_lt (b : UInt8) : (code b).1 < 2 ^ (code b).2 :=
  (table_bounds _ (List.mem_of_getElem? (getElem_code b))).2

/-- The numbers of thirty bits that begin with a code: the first one, and the first one behind them. -/
def span (c : Nat × Nat) : Nat × Nat := (c.1 <<< (30 - c.2), (c.1 + 1) <<< (30 - c.2))

/-- A span, not empty, ends before another one begins. -/
def Before (s s' : Nat × Nat) : Prop := s.1 < s.2 ∧ s.2 ≤ s'.1

instance : DecidableRel Before := fun _ _ => inferInstanceAs (Decidable (_ ∧ _))

instance : IsTrans (Nat × Nat) Before := ⟨fun _ _ _ h h' => ⟨h.1, (h.2.trans h'.1.le).trans h'.2⟩⟩

/-- In the order of their beginnings the spans of the table lie behind each other. -/
theorem spans_isChain : (((CODES.zip CODE_LENGTHS).map span).insertionSort fun s s' => s.1 ≤ s'.1).IsChain Before := by
  decide +kernel

/-- So at different places of the table are codes whose spans have nothing in common. -/
theorem spans_pairwise : ((CODES.zip CODE_LENGTHS).map span).Pairwise fun s s' => Before s s' ∨ Before s' s := by
  refine (List.perm_insertionSort (fun s s' => s.1 ≤ s'.1) _).pairwise_iff (fun h => h.symm) |>.mp ?_
  exact (List.isChain_iff_pairwise.mp spans_isChain).imp fun h => .inl h

theorem spans_apart {b b' : UInt8} (h : b ≠ b') :
    Before (span (code b)) (span (code b')) ∨ Before (span (code b')) (span (code b)) := by
  have hspan : ∀ b, ∃ hb : b.toNat < ((CODES.zip CODE_LENGTHS).map span).length,
      ((CODES.zip CODE_LENGTHS).map span)[b.toNat] = span (code b) := fun b =>
    List.getElem?_eq_some_iff.mp (by rw [List.getElem?_map, getElem_code, Option.map_some])
  obtain ⟨hb, heq⟩ := hspan b
  obtain ⟨hb', heq'⟩ := hspan b'
  rw [← heq, ← heq']
  rcases Nat.lt_or_gt_of_ne fun hn => h (UInt8.toNat_inj.mp hn) with hlt | hgt
  · exact List.pairwise_iff_getElem.mp spans_pairwise _ _ hb hb' hlt
  · exact (List.pairwise_iff_getElem.mp spans_pairwise _ _ hb' hb hgt).symm

/-- Of two codes one begins with the other only if they are the same byte's. -/
theorem eq_of_codeBits_begins {b b' : UInt8} (h : codeBits b <+: codeBits b') : b = b' := by
  have hlen : (code b).2 ≤ (code b').2 := by
    simpa only [length_codeBits] using h.length_le
  have hlt : (code b').1 / 2 ^ ((code b').2 - (code b).2) < 2 ^ (code b).2 := by
    rw [Nat.div_lt_iff_lt_mul (Nat.two_pow_pos _), ← Nat.pow_add, Nat.add_sub_cancel' hlen]
    exact code_lt b'
  have hdiv := (Bits.low_prefix_low hlen).mp h
  rw [Nat.shiftRight_eq_div_pow, Nat.mod_eq_of_lt (code_lt b), Nat.mod_eq_of_lt hlt,
    Nat.div_eq_iff (Nat.two_pow_pos _)] at hdiv
  -- The second code, filled up, lies in the span of the first one.
  have hpow : 2 ^ (30 - (code b).2) = 2 ^ ((code b').2 - (code b).2) * 2 ^ (30 - (code b').2) := by
    rw [← Nat.pow_add]
    congr 1
    have := (code_length b').2
    omega
  have hpos := Nat.two_pow_pos ((code b').2 - (code b).2)
  have hstart : (span (code b)).1 ≤ (span (code b')).1 := by
    change (code b).1 <<< (30 - (code b).2) ≤ (code b').1 <<< (30 - (code b').2)
    rw [Nat.shiftLeft_eq, Nat.shiftLeft_eq, hpow, ← Nat.mul_assoc]
    exact Nat.mul_le_mul_right _ hdiv.1
  have hend : (span (code b')).2 ≤ (span (code b)).2 := by
    change ((code b').1 + 1) <<< (30 - (code b').2) ≤ ((code b).1 + 1) <<< (30 - (code b).2)
    rw [Nat.shiftLeft_eq, Nat.shiftLeft_eq, hpow, ← Nat.mul_assoc]
    refine Nat.mul_le_mul_right _ ?_
    rw [Nat.add_mul, Nat.one_mul]
    omega
  by_contra hne
  rcases spans_apart hne with hbefore | hbefore
  · have hpos' : (span (code b')).1 < (span (code b')).2 := by
      rw [span, Nat.shiftLeft_eq, Nat.shiftLeft_eq]
      exact Nat.mul_lt_mul_of_pos_right (Nat.lt_succ_self _) (Nat.two_pow_pos _)
    have := hbefore.2
    omega
  · have := hbefore.1
    have := hbefore.2
    omega

theorem codeBits_apart {b b' : UInt8} (h : b ≠ b') : Apart (codeBits b) (codeBits b') :=
  ⟨fun hp => h (eq_of_codeBits_begins hp), fun hp => h (eq_of_codeBits_begins hp).symm⟩

/-! ## `buildTree` -/

/-- The loop comes through if nothing is in the way of any of its codes, and then the tree spells those of the loop and those
it did before. -/
theorem addCodes_spells (bs : List UInt8) (node : Node) (hnodup : bs.Nodup)
    (hclear : ∀ b ∈ bs, Clear node (codeBits b)) :
    ∃ node', bs.foldlM (fun root b => addCode (leaf b) (code b).1 (code b).2 root) node = some node' ∧
      (∀ b ∈ bs, Spells (leaf b) node' (codeBits b)) ∧
      ∀ b, b ∉ bs → Spells (leaf b) node (codeBits b) → Spells (leaf b) node' (codeBits b) := by
  induction bs generalizing node with
  | nil => exact ⟨node, rfl, fun b hb => absurd hb List.not_mem_nil, fun b _ hs => hs⟩
  | cons b bs ih =>
    obtain ⟨hb, hnodup⟩ := List.nodup_cons.mp hnodup
    obtain ⟨node₁, hadd⟩ := addCode_of_clear (hclear b List.mem_cons_self)
    have hne : ∀ {b'}, b' ∈ bs → b ≠ b' := fun hb' heq => hb (heq ▸ hb')
    obtain ⟨node₂, hfold, hnew, hold⟩ := ih node₁ hnodup fun b' hb' =>
      clear_of_addCode hadd (hclear b' (List.mem_cons_of_mem _ hb')) (codeBits_apart (hne hb'))
    refine ⟨node₂, by rw [List.foldlM_cons, hadd]; exact hfold, fun b' hb' => ?_, fun b' hb' hs => ?_⟩
    · rcases List.mem_cons.mp hb' with rfl | hb'
      · exact hold _ hb (spells_addCode (by have := code_length b'; omega) hadd)
      · exact hnew _ hb'
    · obtain ⟨hne', hb'⟩ := not_or.mp fun h => hb' (List.mem_cons.mpr h)
      exact hold _ hb' (spells_of_addCode hadd hs (codeBits_apart (Ne.symm hne')))

/-- `buildTree` comes through, and the tree spells the code of every byte. -/
theorem spells_root (b : UInt8) : Spells (leaf b) root (codeBits b) := by
  have hbytes : ((List.range 256).map UInt8.ofNat).Nodup := by
    refine List.Nodup.map_on (fun i hi j hj heq => ?_) List.nodup_range
    have hmod := congrArg UInt8.toNat heq
    rwa [UInt8.toNat_ofNat', UInt8.toNat_ofNat', Nat.mod_eq_of_lt (List.mem_range.mp hi),
      Nat.mod_eq_of_lt (List.mem_range.mp hj)] at hmod
  obtain ⟨node, hfold, hspells, -⟩ := addCodes_spells ((List.range 256).map UInt8.ofNat) Node.new hbytes
    fun b _ => clear_new _ _
  rw [List.foldlM_map] at hfold
  have hbuild : buildTree = some node := hfold
  rw [root, hbuild, Option.getD_some]
  refine hspells b (List.mem_map.mpr ⟨b.toNat, List.mem_range.mpr b.toNat_lt, ?_⟩)
  exact UInt8.ofNat_toNat

end Huffman

end LibraLive
