import Mathlib.Data.List.Sort

/-!
# Ranking by a key

The items of a list in the order of their keys, highest first.  Where one list is cut off, ranked,
cut off again and then filtered, the first results may not be those of the whole list.
-/

namespace Synthetos.Lib.Ranking

variable {α κ : Type*} [LinearOrder κ]

/-- Items of one key stay in their order. -/
def ranked (key : α → κ) (items : List α) : List α :=
  items.insertionSort fun a b => key b ≤ key a

def ofKey (key : α → κ) (k : κ) (items : List α) : List α := items.filter fun a => decide (key a = k)

/-- The first `n` of the items that pass, in some order of their keys. -/
def IsTop (key : α → κ) (pass : α → Bool) (n : Nat) (items top : List α) : Prop :=
  ∃ ranking : List α, ranking.Perm (items.filter pass) ∧
    (ranking.Pairwise fun a b => key b ≤ key a) ∧ top = ranking.take n

/-- Fewer than `n` of the items rank before this one. -/
def Within (key : α → κ) (n : Nat) (items : List α) (a : α) : Prop :=
  ∃ before after : List α, items = before ++ a :: after ∧
    (before.countP fun b => decide (key a ≤ key b)) +
      (after.countP fun b => decide (key a < key b)) < n

variable {key : α → κ} {pass : α → Bool} {items items' top : List α} {a : α} {n m c : Nat} {k : κ}

theorem total_of_key (key : α → κ) : Std.Total fun a b : α => key b ≤ key a :=
  ⟨fun a b => le_total (key b) (key a)⟩

theorem trans_of_key (key : α → κ) : IsTrans α fun a b => key b ≤ key a :=
  ⟨fun _ _ _ hab hbc => le_trans hbc hab⟩

theorem perm_ranked (key : α → κ) (items : List α) : (ranked key items).Perm items :=
  List.perm_insertionSort _ _

theorem pairwise_ranked (key : α → κ) (items : List α) :
    (ranked key items).Pairwise fun a b => key b ≤ key a := by
  have htotal := total_of_key key
  have htrans := trans_of_key key
  exact List.pairwise_insertionSort _ _

theorem key_of_mem_ofKey (h : a ∈ ofKey key k items) : key a = k := by
  simpa using (List.mem_filter.mp h).2

theorem ofKey_ranked (key : α → κ) (k : κ) (items : List α) :
    ofKey key k (ranked key items) = ofKey key k items := by
  have hsame : (ofKey key k items).Pairwise fun a b => key b ≤ key a := by
    apply List.pairwise_of_forall_mem_list
    intro a ha b hb
    rw [key_of_mem_ofKey ha, key_of_mem_ofKey hb]
  have hsublist : (ofKey key k items).Sublist (ranked key items) := by
    have htotal := total_of_key key
    exact List.sublist_insertionSort hsame List.filter_sublist
  have hfiltered := hsublist.filter fun a => decide (key a = k)
  simp only [ofKey, List.filter_filter, Bool.and_self] at hfiltered
  exact (hfiltered.eq_of_length ((perm_ranked key items).filter _).length_eq.symm).symm

/-- A ranking is known by the items of each key. -/
theorem eq_of_ofKey {r s : List α} (hr : r.Pairwise fun a b => key b ≤ key a)
    (hs : s.Pairwise fun a b => key b ≤ key a) (h : ∀ k, ofKey key k r = ofKey key k s) : r = s := by
  induction r generalizing s with
  | nil =>
    cases s with
    | nil => rfl
    | cons b s => simpa [ofKey] using h (key b)
  | cons a r ih =>
    cases s with
    | nil => simpa [ofKey] using h (key a)
    | cons b s =>
      -- the two heads are of the highest key, and are the first of it
      have ha : a ∈ ofKey key (key a) (b :: s) := h (key a) ▸ by simp [ofKey]
      have hb : b ∈ ofKey key (key b) (a :: r) := h (key b) ▸ by simp [ofKey]
      have hkey : key a = key b := by
        apply le_antisymm
        · rcases List.mem_cons.mp (List.mem_of_mem_filter ha) with heq | hmem
          · rw [heq]
          · exact List.rel_of_pairwise_cons hs hmem
        · rcases List.mem_cons.mp (List.mem_of_mem_filter hb) with heq | hmem
          · rw [heq]
          · exact List.rel_of_pairwise_cons hr hmem
      have hhead := h (key a)
      simp only [ofKey, List.filter_cons, hkey, decide_true, if_true, List.cons.injEq] at hhead
      obtain ⟨rfl, -⟩ := hhead
      congr 1
      apply ih (List.Pairwise.of_cons hr) (List.Pairwise.of_cons hs)
      intro k
      have hrest := h k
      simp only [ofKey, List.filter_cons] at hrest
      by_cases hk : key a = k
      · simpa [hk, ofKey] using hrest
      · simpa [hk, ofKey] using hrest

theorem filter_ranked (key : α → κ) (pass : α → Bool) (items : List α) :
    (ranked key items).filter pass = ranked key (items.filter pass) := by
  apply eq_of_ofKey ((pairwise_ranked key items).filter pass) (pairwise_ranked key _)
  intro k
  rw [ofKey_ranked]
  have hranked := congrArg (List.filter pass) (ofKey_ranked key k items)
  simpa only [ofKey, List.filter_filter, Bool.and_comm] using hranked

/-! ### Cutting off -/

theorem take_eq_of_sublist {r s : List α} (hsub : r.Sublist s) (hs : s.Nodup)
    (h : ∀ a ∈ s.take n, a ∈ r) : r.take n = s.take n := by
  induction hsub generalizing n with
  | slnil => rfl
  | @cons r s a hsub ih =>
    cases n with
    | zero => rfl
    | succ n =>
      have hmem : a ∈ r := h a (by simp)
      exact absurd (hsub.subset hmem) (List.nodup_cons.mp hs).1
  | @cons_cons r s a hsub ih =>
    cases n with
    | zero => rfl
    | succ n =>
      obtain ⟨hnew, hs⟩ := List.nodup_cons.mp hs
      rw [List.take_succ_cons, List.take_succ_cons, ih hs]
      intro b hb
      have hmem : b ∈ a :: r := h b (by simp [hb])
      rcases List.mem_cons.mp hmem with rfl | hmem
      · exact absurd (List.mem_of_mem_take hb) hnew
      · exact hmem

/-- The first `n` that pass among the first `c` of the ranking of the first `m` items. -/
def cutTop (key : α → κ) (pass : α → Bool) (m c n : Nat) (items : List α) : List α :=
  (((ranked key (items.take m)).take c).filter pass).take n

theorem map_key_eq {ranking : List α} (hperm : ranking.Perm items)
    (hsorted : ranking.Pairwise fun a b => key b ≤ key a) :
    ranking.map key = (ranked key items).map key := by
  have hantisymm : Std.Antisymm fun k l : κ => l ≤ k := ⟨fun _ _ hkl hlk => le_antisymm hlk hkl⟩
  have hmap : (ranking.map key).Perm ((ranked key items).map key) :=
    (hperm.trans (perm_ranked key items).symm).map key
  have hleft : (ranking.map key).Pairwise fun k l => l ≤ k := List.pairwise_map.mpr hsorted
  have hright : ((ranked key items).map key).Pairwise fun k l => l ≤ k :=
    List.pairwise_map.mpr (pairwise_ranked key items)
  exact hmap.eq_of_pairwise' hleft hright

theorem prefix_filter_take (pass : α → Bool) (c : Nat) (r : List α) :
    ((r.take c).filter pass) <+: r.filter pass :=
  (List.take_prefix c r).filter pass

/-- What a cut ranking returns of a key comes first among the items of that key. -/
theorem prefix_ofKey_cutTop (k : κ) :
    ofKey key k (cutTop key pass m c n items) <+: ofKey key k (items.filter pass) := by
  have hranked : cutTop key pass m c n items <+: ranked key ((items.take m).filter pass) := by
    rw [← filter_ranked]
    exact (List.take_prefix n _).trans (prefix_filter_take pass c _)
  have hfirst := hranked.filter fun a => decide (key a = k)
  rw [← ofKey, ← ofKey, ofKey_ranked] at hfirst
  exact hfirst.trans ((prefix_filter_take pass m items).filter _)

theorem pairwise_cutTop : (cutTop key pass m c n items).Pairwise fun a b => key b ≤ key a := by
  have hranked := pairwise_ranked key (items.take m)
  exact ((hranked.sublist (List.take_sublist c _)).filter pass).sublist (List.take_sublist n _)

/-- The only top a cut ranking can return is that of the stable ranking. -/
theorem cutTop_eq_of_isTop (h : IsTop key pass n items (cutTop key pass m c n items)) :
    cutTop key pass m c n items = (ranked key (items.filter pass)).take n := by
  obtain ⟨ranking, hperm, hsorted, htop⟩ := h
  have hkeys : (cutTop key pass m c n items).map key =
      ((ranked key (items.filter pass)).take n).map key := by
    rw [htop, List.map_take, List.map_take, map_key_eq hperm hsorted]
  apply eq_of_ofKey pairwise_cutTop ((pairwise_ranked key _).sublist (List.take_sublist n _))
  intro k
  -- both are the first items of the key, and they are as many
  have hlength : (ofKey key k (cutTop key pass m c n items)).length =
      (ofKey key k ((ranked key (items.filter pass)).take n)).length := by
    have hcount := congrArg (List.countP fun l => decide (l = k)) hkeys
    rw [List.countP_map, List.countP_map, List.countP_eq_length_filter,
      List.countP_eq_length_filter] at hcount
    exact hcount
  have hprefix : ofKey key k ((ranked key (items.filter pass)).take n) <+:
      ofKey key k (items.filter pass) := by
    rw [← ofKey_ranked key k (items.filter pass)]
    exact (List.take_prefix n _).filter _
  exact (List.prefix_of_prefix_length_le (prefix_ofKey_cutTop k) hprefix hlength.le).eq_of_length
    hlength

theorem ranked_sublist {r s : List α} (h : r.Sublist s) (key : α → κ) :
    (ranked key r).Sublist (ranked key s) := by
  have htotal := total_of_key key
  have htrans := trans_of_key key
  induction h with
  | slnil => exact List.Sublist.refl _
  | cons a _ ih => exact ih.trans (List.sublist_orderedInsert a _)
  | cons_cons a _ ih => exact ih.orderedInsert_sublist a (pairwise_ranked key _)

theorem cutTop_sublist :
    (((ranked key (items.take m)).take c).filter pass).Sublist (ranked key (items.filter pass)) := by
  have hcut : (((ranked key (items.take m)).take c).filter pass).Sublist
      (ranked key ((items.take m).filter pass)) := by
    rw [← filter_ranked]
    exact (prefix_filter_take pass c _).sublist
  exact hcut.trans (ranked_sublist (prefix_filter_take pass m items).sublist key)

theorem cutTop_isTop_ranked_iff (h : items.Nodup) :
    IsTop key pass n items (cutTop key pass m c n items) ↔
      ∀ a ∈ (ranked key (items.filter pass)).take n, a ∈ (ranked key (items.take m)).take c := by
  constructor
  · intro htop a ha
    rw [← cutTop_eq_of_isTop htop] at ha
    exact List.mem_of_mem_filter (List.mem_of_mem_take ha)
  · intro hkept
    refine ⟨_, perm_ranked key _, pairwise_ranked key _, ?_⟩
    apply take_eq_of_sublist cutTop_sublist ((perm_ranked key _).nodup_iff.mpr (h.filter pass))
    intro a ha
    have hmem := (perm_ranked key _).mem_iff.mp (List.mem_of_mem_take ha)
    exact List.mem_filter.mpr ⟨hkept a ha, (List.mem_filter.mp hmem).2⟩

theorem isTop_congr {pass' : α → Bool} (h : (items.filter pass).Perm (items'.filter pass')) :
    IsTop key pass n items top ↔ IsTop key pass' n items' top := by
  constructor
  · rintro ⟨ranking, hperm, hsorted, htop⟩
    exact ⟨ranking, hperm.trans h, hsorted, htop⟩
  · rintro ⟨ranking, hperm, hsorted, htop⟩
    exact ⟨ranking, hperm.trans h.symm, hsorted, htop⟩

/-! ### Positions -/

theorem mem_take_append_cons {before after : List α} (h : (before ++ a :: after).Nodup) :
    a ∈ (before ++ a :: after).take n ↔ before.length < n := by
  have hnew : a ∉ before := fun hmem => (List.nodup_append.mp h).2.2 a hmem a (by simp) rfl
  rw [List.take_append, List.mem_append]
  constructor
  · rintro (hmem | hmem)
    · exact absurd (List.mem_of_mem_take hmem) hnew
    · by_contra hlong
      rw [Nat.sub_eq_zero_of_le (Nat.not_lt.mp hlong)] at hmem
      simp at hmem
  · intro hlong
    obtain ⟨rest, hrest⟩ := Nat.exists_eq_add_of_lt hlong
    right
    have hleft : n - before.length = rest + 1 := by omega
    rw [hleft]
    simp

theorem countP_le_eq_add (key : α → κ) (k : κ) (items : List α) :
    (items.countP fun b => decide (k ≤ key b)) =
      (items.countP fun b => decide (k < key b)) + (ofKey key k items).length := by
  induction items with
  | nil => rfl
  | cons b rest ih =>
    simp only [ofKey, List.countP_cons, List.filter_cons] at ih ⊢
    rw [ih]
    rcases lt_trichotomy k (key b) with hlt | heq | hgt
    · simp [hlt, hlt.le, hlt.ne']
      omega
    · simp [← heq]
      omega
    · simp [hgt.not_ge, hgt.not_gt, hgt.ne]

/-- Items of one key keep their sides of an item of that key. -/
theorem ofKey_of_ranked {before after ahead behind : List α} (h : (before ++ a :: after).Nodup)
    (hranked : ranked key (before ++ a :: after) = ahead ++ a :: behind) :
    ofKey key (key a) ahead = ofKey key (key a) before ∧
      ofKey key (key a) behind = ofKey key (key a) after := by
  have hnodup := (perm_ranked key _).nodup_iff.mpr h
  have hsame := ofKey_ranked key (key a) (before ++ a :: after)
  rw [hranked] at hnodup hsame
  simp only [ofKey, List.filter_append, List.filter_cons, decide_true, if_true] at hsame
  have hbehind : a ∉ behind.filter fun b => decide (key b = key a) := fun hmem =>
    (List.nodup_cons.mp (List.nodup_append.mp hnodup).2.1).1 (List.mem_of_mem_filter hmem)
  have hahead : a ∉ ahead.filter fun b => decide (key b = key a) := fun hmem =>
    (List.nodup_append.mp hnodup).2.2 a (List.mem_of_mem_filter hmem) a (by simp) rfl
  obtain ⟨hleft, -, hright⟩ := (List.append_cons_inj_of_notMem hahead hbehind).mp hsame
  exact ⟨hleft, hright⟩

/-- The position of an item in the ranking. -/
theorem length_of_ranked {before after ahead behind : List α}
    (h : (before ++ a :: after).Nodup)
    (hranked : ranked key (before ++ a :: after) = ahead ++ a :: behind) :
    ahead.length = (before.countP fun b => decide (key a ≤ key b)) +
      (after.countP fun b => decide (key a < key b)) := by
  have hsorted := pairwise_ranked key (before ++ a :: after)
  have hperm := perm_ranked key (before ++ a :: after)
  have hsame := (ofKey_of_ranked h hranked).1
  rw [hranked] at hsorted hperm
  have hhigher := hperm.countP_eq fun b => decide (key a < key b)
  have hnone : (behind.countP fun b => decide (key a < key b)) = 0 := by
    rw [List.countP_eq_zero]
    intro b hb
    have hle := List.rel_of_pairwise_cons (List.pairwise_append.mp hsorted).2.1 hb
    simpa using hle
  simp only [List.countP_append, List.countP_cons, lt_self_iff_false, decide_false,
    Bool.false_eq_true, if_false, hnone] at hhigher
  have hall : (ahead.countP fun b => decide (key a ≤ key b)) = ahead.length := by
    rw [List.countP_eq_length]
    intro b hb
    simpa using (List.pairwise_append.mp hsorted).2.2 b hb a (by simp)
  rw [← hall, countP_le_eq_add, countP_le_eq_add, hsame]
  omega

theorem within_of_length (hlength : items.length ≤ n) (h : a ∈ items) : Within key n items a := by
  obtain ⟨before, after, rfl⟩ := List.append_of_mem h
  refine ⟨before, after, rfl, ?_⟩
  have hbefore := List.countP_le_length (p := fun b => decide (key a ≤ key b)) (l := before)
  have hafter := List.countP_le_length (p := fun b => decide (key a < key b)) (l := after)
  rw [List.length_append, List.length_cons] at hlength
  omega

theorem mem_take_ranked (h : items.Nodup) :
    a ∈ (ranked key items).take n ↔ Within key n items a := by
  constructor
  · intro hmem
    obtain ⟨ahead, behind, hranked⟩ := List.append_of_mem (List.mem_of_mem_take hmem)
    have hitem : a ∈ items := (perm_ranked key items).mem_iff.mp (List.mem_of_mem_take hmem)
    obtain ⟨before, after, rfl⟩ := List.append_of_mem hitem
    refine ⟨before, after, rfl, ?_⟩
    have hnodup := (perm_ranked key _).nodup_iff.mpr h
    rw [hranked] at hmem hnodup
    rw [← length_of_ranked h hranked]
    exact (mem_take_append_cons hnodup).mp hmem
  · rintro ⟨before, after, rfl, hfew⟩
    have hitem : a ∈ ranked key (before ++ a :: after) :=
      (perm_ranked key _).mem_iff.mpr (by simp)
    obtain ⟨ahead, behind, hranked⟩ := List.append_of_mem hitem
    have hnodup := (perm_ranked key _).nodup_iff.mpr h
    rw [hranked] at hnodup ⊢
    rw [← length_of_ranked h hranked] at hfew
    exact (mem_take_append_cons hnodup).mpr hfew

theorem cutTop_isTop_iff (h : items.Nodup) :
    IsTop key pass n items (cutTop key pass m c n items) ↔
      ∀ a, Within key n (items.filter pass) a → Within key c (items.take m) a := by
  rw [cutTop_isTop_ranked_iff h]
  apply forall_congr'
  intro a
  rw [mem_take_ranked (h.filter pass), mem_take_ranked (h.sublist (List.take_sublist m items))]

/-! ### The first of another ranking -/

/-- A list starts as its sorted form does exactly where each of its first items goes before all
that come after it. -/
theorem head_eq_of_perm {lt : α → α → Prop} (hasymm : ∀ a b, lt a b → ¬ lt b a) {a c : α}
    {r s : List α} (hperm : (a :: r).Perm (c :: s)) (hr : ∀ b ∈ r, lt a b) (hs : ∀ b ∈ s, lt c b) :
    a = c := by
  by_contra hne
  have hc : c ∈ r := by
    rcases List.mem_cons.mp (hperm.mem_iff.mpr List.mem_cons_self) with heq | hmem
    · exact absurd heq.symm hne
    · exact hmem
  have ha : a ∈ s := by
    rcases List.mem_cons.mp (hperm.mem_iff.mp List.mem_cons_self) with heq | hmem
    · exact absurd heq hne
    · exact hmem
  exact hasymm a c (hr c hc) (hs a ha)

theorem take_eq_take_iff {lt : α → α → Prop} (hasymm : ∀ a b, lt a b → ¬ lt b a) {r s : List α}
    (hperm : r.Perm s) (hs : s.Pairwise lt) : r.take n = s.take n ↔
      ∀ before a after, r = before ++ a :: after → before.length < n → ∀ b ∈ after, lt a b := by
  induction r generalizing s n with
  | nil =>
    rw [← hperm.nil_eq]
    simp
  | cons a r ih =>
    cases s with
    | nil => exact absurd hperm.length_eq (by simp)
    | cons c s =>
      obtain ⟨hfirst, hrest⟩ := List.pairwise_cons.mp hs
      cases n with
      | zero => simp
      | succ n =>
        rw [List.take_succ_cons, List.take_succ_cons]
        constructor
        · intro htake
          obtain ⟨rfl, hrests⟩ := List.cons.inj htake
          have hperms := hperm.cons_inv
          intro before b after hsplit hfew d hd
          cases before with
          | nil =>
            obtain ⟨rfl, rfl⟩ := List.cons.inj hsplit
            exact hfirst d (hperms.subset hd)
          | cons _ before =>
            obtain ⟨-, hsplit⟩ := List.cons.inj hsplit
            exact (ih hperms hrest).mp hrests before b after hsplit (Nat.lt_of_succ_lt_succ hfew) d hd
        · intro hall
          have hhead : a = c :=
            head_eq_of_perm hasymm hperm (hall [] a r rfl (Nat.succ_pos n)) hfirst
          subst hhead
          congr 1
          apply (ih hperm.cons_inv hrest).mpr
          intro before b after hsplit hfew
          exact hall (a :: before) b after (by rw [hsplit]; rfl) (Nat.succ_lt_succ hfew)

end Synthetos.Lib.Ranking
