import Mathlib.Data.List.Nodup
import Mathlib.Data.List.Perm.Basic
import Mathlib.Logic.Function.Basic

/-!
# Moving the values of keys

A map is a partial function; the value of one key is moved to another key, where it replaces what
is there. A list of moves, of which no two start at the same key, is carried out one by one.

* `moves_perm_iff`: when the order of the moves does not matter.
* `substituted`: the moves then replace all keys at once.
-/

universe u v

namespace KeyMoves

variable {K : Type u} {V : Type v} [DecidableEq K]

/-- Move the value of one key, if there is one, to another key. -/
def move (f : K → Option V) (e : K × K) : K → Option V :=
  match f e.1 with
  | some x => Function.update (Function.update f e.1 none) e.2 (some x)
  | none => f

/-- Carry out a list of moves. -/
def moves (L : List (K × K)) (f : K → Option V) : K → Option V := L.foldl move f

/-- The value of a key is not moved to a key whose own value is moved away. -/
def NoChain (L : List (K × K)) (f : K → Option V) : Prop :=
  ∀ a b c, (a, b) ∈ L → (b, c) ∈ L → a ≠ b → b ≠ c → f a = none

/-- Values that are moved to the same key are equal. -/
def Agree (L : List (K × K)) (f : K → Option V) : Prop :=
  ∀ a b c, (a, c) ∈ L → (b, c) ∈ L → a ≠ c → b ≠ c →
    ∀ x y, f a = some x → f b = some y → x = y

/-- The key that a key becomes. -/
def target (L : List (K × K)) (a : K) : K := (L.lookup a).getD a

/-- The keys of one map are replaced all at once to give the other one, and a value is lost only
where two keys become the same. -/
structure Substituted (L : List (K × K)) (f g : K → Option V) : Prop where
  keys : ∀ n, (g n).isSome ↔ ∃ a, (f a).isSome ∧ target L a = n
  values : ∀ n x, g n = some x → ∃ a, f a = some x ∧ target L a = n
  kept : ∀ a x, f a = some x → (∀ b, (f b).isSome → target L b = target L a → b = a) →
    g (target L a) = some x

variable {L : List (K × K)} {f : K → Option V} {a b c n : K} {x : V}

/-- A move of nothing. -/
theorem move_eq_self (h : f a = none) : move f (a, b) = f := by
  simp [move, h]

/-- A move to the key itself. -/
theorem move_self (f : K → Option V) (a : K) : move f (a, a) = f := by
  unfold move
  split
  next x h => rw [Function.update_idem, ← h, Function.update_eq_self]
  next => rfl

/-- What a move leaves. -/
theorem move_apply (h : f a = some x) (n : K) :
    move f (a, b) n = if n = b then some x else if n = a then none else f n := by
  simp only [move, h, Function.update_apply]

/-- A move leaves the keys that are neither its start nor its end. -/
theorem move_of_ne (ha : n ≠ a) (hb : n ≠ b) : move f (a, b) n = f n := by
  cases h : f a with
  | none => rw [move_eq_self h]
  | some x => rw [move_apply h, if_neg hb, if_neg ha]

/-- A move of another key leaves the key a value. -/
theorem isSome_move (ha : n ≠ a) (hn : (f n).isSome) : (move f (a, b) n).isSome := by
  cases h : f a with
  | none => rwa [move_eq_self h]
  | some x =>
      rw [move_apply h, if_neg ha]
      split
      · rfl
      · exact hn

/-- The moves of other keys leave a key a value. -/
theorem isSome_moves (ha : ∀ e ∈ L, n ≠ e.1) (hn : (f n).isSome) : (moves L f n).isSome := by
  induction L generalizing f with
  | nil => exact hn
  | cons e L ih =>
      exact ih (fun e' he' => ha e' (List.mem_cons_of_mem _ he'))
        (isSome_move (ha e List.mem_cons_self) hn)

omit [DecidableEq K] in
/-- A key that a value is moved to starts no move to another key. -/
theorem NoChain.eq (h : NoChain L f) (hab : (a, b) ∈ L) (hne : a ≠ b) (hx : f a = some x)
    (hbc : (b, c) ∈ L) : c = b := by
  by_contra hcb
  rw [h a b c hab hbc hne (Ne.symm hcb)] at hx
  cases hx

omit [DecidableEq K] in
/-- A key that a move starts at is the start of no other one. -/
theorem not_mem_of_nodup {e : K × K} (hnodup : ((e :: L).map Prod.fst).Nodup) :
    ∀ c, (e.1, c) ∉ L := fun _ h =>
  (List.nodup_cons.mp hnodup).1 (List.mem_map.mpr ⟨_, h, rfl⟩)

/-- After a move that does something, the rest of the moves have no chain. -/
theorem NoChain.move (hnodup : (((a, b) :: L).map Prod.fst).Nodup) (hne : a ≠ b)
    (hx : f a = some x) (h : NoChain ((a, b) :: L) f) : NoChain L (move f (a, b)) := by
  intro p q r hpq hqr hp hq
  have hpa : p ≠ a := fun heq => not_mem_of_nodup hnodup q (heq ▸ hpq)
  -- A move that started at the end of the first one would be a chain with it.
  have hpb : p ≠ b := by
    rintro rfl
    exact hp (h.eq List.mem_cons_self hne hx (List.mem_cons_of_mem _ hpq)).symm
  rw [move_of_ne hpa hpb]
  exact h p q r (List.mem_cons_of_mem _ hpq) (List.mem_cons_of_mem _ hqr) hp hq

/-- After such a move, the rest of the moves agree. -/
theorem Agree.move (hnodup : (((a, b) :: L).map Prod.fst).Nodup) (hne : a ≠ b)
    (hx : f a = some x) (hchain : NoChain ((a, b) :: L) f) (h : Agree ((a, b) :: L) f) :
    Agree L (move f (a, b)) := by
  have hstart : ∀ p r, (p, r) ∈ L → p ≠ r → p ≠ a ∧ p ≠ b := by
    refine fun p r hpr hp => ⟨fun heq => not_mem_of_nodup hnodup r (heq ▸ hpr), ?_⟩
    rintro rfl
    exact hp (hchain.eq List.mem_cons_self hne hx (List.mem_cons_of_mem _ hpr)).symm
  intro p q r hpr hqr hp hq y z hy hz
  obtain ⟨hpa, hpb⟩ := hstart p r hpr hp
  obtain ⟨hqa, hqb⟩ := hstart q r hqr hq
  rw [move_of_ne hpa hpb] at hy
  rw [move_of_ne hqa hqb] at hz
  exact h p q r (List.mem_cons_of_mem _ hpr) (List.mem_cons_of_mem _ hqr) hp hq y z hy hz

/-- A key that no value is moved to. -/
def Untouched (L : List (K × K)) (f : K → Option V) (n : K) : Prop :=
  ∀ p, (p, n) ∈ L → p ≠ n → f p = none

omit [DecidableEq K] in
/-- Fewer moves have no chain. -/
theorem NoChain.mono {L' : List (K × K)} (hsub : L' ⊆ L) (h : NoChain L f) : NoChain L' f :=
  fun p q r hpq hqr => h p q r (hsub hpq) (hsub hqr)

omit [DecidableEq K] in
/-- Fewer moves agree. -/
theorem Agree.mono {L' : List (K × K)} (hsub : L' ⊆ L) (h : Agree L f) : Agree L' f :=
  fun p q r hpr hqr => h p q r (hsub hpr) (hsub hqr)

/-- The first move does nothing, or there is a value that it moves to another key. -/
theorem move_cases (f : K → Option V) (a b : K) :
    (move f (a, b) = f ∧ (a ≠ b → f a = none)) ∨ (a ≠ b ∧ ∃ x, f a = some x) := by
  by_cases hne : a = b
  · subst hne
    exact .inl ⟨move_self f a, fun h => absurd rfl h⟩
  · cases hx : f a with
    | none => exact .inl ⟨move_eq_self hx, fun _ => rfl⟩
    | some x => exact .inr ⟨hne, x, rfl⟩

/-- Where there is no chain, a key that no value is moved to keeps its own, or loses it if it is
moved away. -/
theorem moves_of_untouched (hnodup : (L.map Prod.fst).Nodup) (hchain : NoChain L f)
    (hn : Untouched L f n) :
    ((∀ c, (n, c) ∈ L → c = n) → moves L f n = f n) ∧
      ∀ c, (n, c) ∈ L → c ≠ n → moves L f n = none := by
  induction L generalizing f with
  | nil => exact ⟨fun _ => rfl, nofun⟩
  | cons e L ih =>
      obtain ⟨a, b⟩ := e
      have hrest := (List.nodup_cons.mp hnodup).2
      have hfirst : ∀ c, (a, c) ∉ L := not_mem_of_nodup hnodup
      rw [show moves ((a, b) :: L) f = moves L (move f (a, b)) from rfl]
      obtain ⟨hself, hnone⟩ | ⟨hne, x, hx⟩ := move_cases f a b
      · rw [hself]
        obtain ⟨hkeep, hlose⟩ := ih hrest (hchain.mono (List.subset_cons_self _ _))
          fun p hp => hn p (List.mem_cons_of_mem _ hp)
        refine ⟨fun h => hkeep fun c hc => h c (List.mem_cons_of_mem _ hc), fun c hc hcn => ?_⟩
        rcases List.mem_cons.mp hc with heq | hc
        · obtain ⟨rfl, rfl⟩ := Prod.mk.inj heq
          rw [hkeep fun c hc => absurd hc (hfirst c), hnone hcn.symm]
        · exact hlose c hc hcn
      · have hnb : n ≠ b := by
          rintro rfl
          exact Option.some_ne_none x (hx.symm.trans (hn a List.mem_cons_self hne))
        obtain ⟨hkeep, hlose⟩ := ih hrest (hchain.move hnodup hne hx) fun p hp hpn => by
          have hpa : p ≠ a := fun heq => hfirst n (heq ▸ hp)
          have hpb : p ≠ b := by
            rintro rfl
            exact hpn (hchain.eq List.mem_cons_self hne hx (List.mem_cons_of_mem _ hp)).symm
          rw [move_of_ne hpa hpb]
          exact hn p (List.mem_cons_of_mem _ hp) hpn
        constructor
        · intro h
          have hna : n ≠ a := fun heq => hnb (h b (heq ▸ List.mem_cons_self)).symm
          rw [hkeep fun c hc => h c (List.mem_cons_of_mem _ hc), move_of_ne hna hnb]
        · intro c hc hcn
          rcases List.mem_cons.mp hc with heq | hc
          · obtain ⟨rfl, rfl⟩ := Prod.mk.inj heq
            rw [hkeep fun c hc => absurd hc (hfirst c), move_apply hx, if_neg hnb, if_pos rfl]
          · exact hlose c hc hcn

/-- Where there is no chain and the moves agree, a key gets a value that is moved to it. -/
theorem moves_of_mem (hnodup : (L.map Prod.fst).Nodup) (hchain : NoChain L f) (hagree : Agree L f)
    (hmem : (a, n) ∈ L) (hne : a ≠ n) (hx : f a = some x) : moves L f n = some x := by
  induction L generalizing f a x with
  | nil => cases hmem
  | cons e L ih =>
      obtain ⟨p, q⟩ := e
      have hrest := (List.nodup_cons.mp hnodup).2
      have hfirst : ∀ c, (p, c) ∉ L := not_mem_of_nodup hnodup
      rw [show moves ((p, q) :: L) f = moves L (move f (p, q)) from rfl]
      obtain ⟨hself, hnone⟩ | ⟨hpq, y, hy⟩ := move_cases f p q
      · rw [hself]
        rcases List.mem_cons.mp hmem with heq | hmem
        · obtain ⟨rfl, rfl⟩ := Prod.mk.inj heq
          rw [hnone hne] at hx
          cases hx
        · exact ih hrest (hchain.mono (List.subset_cons_self _ _))
            (hagree.mono (List.subset_cons_self _ _)) hmem hne hx
      · have hchain' := hchain.move hnodup hpq hy
        have hagree' := hagree.move hnodup hpq hy hchain
        -- A key that starts one of the other moves still has its value.
        have hstart : ∀ r, (r, n) ∈ L → r ≠ n → move f (p, q) r = f r := fun r hr hrn => by
          refine move_of_ne (fun heq => hfirst n (heq ▸ hr)) ?_
          rintro rfl
          exact hrn (hchain.eq List.mem_cons_self hpq hy (List.mem_cons_of_mem _ hr)).symm
        rcases List.mem_cons.mp hmem with heq | hmem
        · obtain ⟨rfl, rfl⟩ := Prod.mk.inj heq
          by_cases htouched : Untouched L (move f (a, n)) n
          · rw [(moves_of_untouched hrest hchain' htouched).1 fun c hc =>
                hchain.eq List.mem_cons_self hne hx (List.mem_cons_of_mem _ hc),
              move_apply hx, if_pos rfl]
          · simp only [Untouched, not_forall] at htouched
            obtain ⟨r, hr, hrn, hsome⟩ := htouched
            obtain ⟨z, hz⟩ := Option.ne_none_iff_exists'.mp hsome
            have hfz := hz
            rw [hstart r hr hrn] at hfz
            rw [ih hrest hchain' hagree' hr hrn hz,
              hagree a r n List.mem_cons_self (List.mem_cons_of_mem _ hr) hne hrn x z hx hfz]
        · exact ih hrest hchain' hagree' hmem hne ((hstart a hmem hne).trans hx)

/-- Where there is no chain and the moves agree, their order does not matter. -/
theorem moves_perm {L' : List (K × K)} (hnodup : (L.map Prod.fst).Nodup) (hchain : NoChain L f)
    (hagree : Agree L f) (hperm : L'.Perm L) : moves L' f = moves L f := by
  have hnodup' : (L'.map Prod.fst).Nodup := (hperm.map _).nodup_iff.mpr hnodup
  have hchain' := hchain.mono hperm.subset
  have hagree' := hagree.mono hperm.subset
  funext n
  by_cases htouched : Untouched L f n
  · have hkeep := moves_of_untouched hnodup hchain htouched
    have hkeep' := moves_of_untouched hnodup' hchain' fun p hp => htouched p (hperm.subset hp)
    by_cases hstart : ∀ c, (n, c) ∈ L → c = n
    · rw [hkeep.1 hstart, hkeep'.1 fun c hc => hstart c (hperm.subset hc)]
    · push Not at hstart
      obtain ⟨c, hc, hcn⟩ := hstart
      rw [hkeep.2 c hc hcn, hkeep'.2 c (hperm.symm.subset hc) hcn]
  · simp only [Untouched, not_forall] at htouched
    obtain ⟨p, hp, hpn, hsome⟩ := htouched
    obtain ⟨x, hx⟩ := Option.ne_none_iff_exists'.mp hsome
    rw [moves_of_mem hnodup hchain hagree hp hpn hx,
      moves_of_mem hnodup' hchain' hagree' (hperm.symm.subset hp) hpn hx]

/-- A key that a move starts at becomes the end of the move. -/
theorem target_of_mem (hnodup : (L.map Prod.fst).Nodup) (h : (a, b) ∈ L) : target L a = b := by
  induction L with
  | nil => cases h
  | cons e L ih =>
      obtain ⟨p, q⟩ := e
      rw [target, List.lookup_cons]
      rcases List.mem_cons.mp h with heq | h
      · obtain ⟨rfl, rfl⟩ := Prod.mk.inj heq
        simp
      · have hne : a ≠ p := fun heq => not_mem_of_nodup hnodup b (heq ▸ h)
        rw [beq_eq_false_iff_ne.mpr hne]
        exact ih (List.nodup_cons.mp hnodup).2 h

/-- A key that no move starts at stays. -/
theorem target_of_not_mem (h : ∀ b, (a, b) ∉ L) : target L a = a := by
  have hnone : L.lookup a = none := List.lookup_eq_none_iff.mpr fun e he => by
    rw [bne_iff_ne]
    rintro rfl
    exact h e.2 he
  rw [target, hnone, Option.getD_none]

/-- A key that becomes another one starts a move to it. -/
theorem mem_of_target_ne (hnodup : (L.map Prod.fst).Nodup) (h : target L a ≠ a) :
    (a, target L a) ∈ L := by
  by_contra hmem
  refine h (target_of_not_mem fun b hb => hmem ?_)
  rwa [target_of_mem hnodup hb]

/-- Where there is no chain and the moves agree, a key gets the value of a key that becomes it, or
there is none. -/
theorem moves_cases (hnodup : (L.map Prod.fst).Nodup) (hchain : NoChain L f) (hagree : Agree L f)
    (n : K) :
    (∃ a x, f a = some x ∧ target L a = n ∧ moves L f n = some x) ∨
      (moves L f n = none ∧ ∀ a, (f a).isSome → target L a ≠ n) := by
  by_cases htouched : Untouched L f n
  · obtain ⟨hkeep, hlose⟩ := moves_of_untouched hnodup hchain htouched
    have hothers : ∀ a, (f a).isSome → target L a = n → a = n := by
      rintro a ha rfl
      by_contra hne
      rw [htouched a (mem_of_target_ne hnodup (Ne.symm hne)) hne] at ha
      cases ha
    by_cases hstart : ∀ c, (n, c) ∈ L → c = n
    · have htarget : target L n = n := by
        by_contra hne
        exact hne (hstart _ (mem_of_target_ne hnodup hne))
      cases hn : f n with
      | some x => exact .inl ⟨n, x, hn, htarget, (hkeep hstart).trans hn⟩
      | none =>
          refine .inr ⟨(hkeep hstart).trans hn, fun a ha htarget => ?_⟩
          rw [hothers a ha htarget, hn] at ha
          cases ha
    · push Not at hstart
      obtain ⟨c, hc, hcn⟩ := hstart
      refine .inr ⟨hlose c hc hcn, fun a ha htarget => ?_⟩
      rw [hothers a ha htarget, target_of_mem hnodup hc] at htarget
      exact hcn htarget
  · simp only [Untouched, not_forall] at htouched
    obtain ⟨p, hp, hpn, hsome⟩ := htouched
    obtain ⟨x, hx⟩ := Option.ne_none_iff_exists'.mp hsome
    exact .inl ⟨p, x, hx, target_of_mem hnodup hp, moves_of_mem hnodup hchain hagree hp hpn hx⟩

/-- Where there is no chain and the moves agree, they replace all keys at once. -/
theorem substituted (hnodup : (L.map Prod.fst).Nodup) (hchain : NoChain L f)
    (hagree : Agree L f) : Substituted L f (moves L f) := by
  have hcases := moves_cases hnodup hchain hagree
  refine ⟨fun n => ?_, fun n x hn => ?_, fun a x hx honly => ?_⟩
  · obtain ⟨a, x, hx, htarget, hn⟩ | ⟨hn, hno⟩ := hcases n
    · simp only [hn, Option.isSome_some, true_iff]
      exact ⟨a, by rw [hx, Option.isSome_some], htarget⟩
    · simp only [hn, Option.isSome_none, Bool.false_eq_true, false_iff, not_exists, not_and]
      exact hno
  · obtain ⟨a, y, hy, htarget, hn'⟩ | ⟨hn', -⟩ := hcases n
    · exact ⟨a, hy.trans (hn'.symm.trans hn), htarget⟩
    · rw [hn'] at hn
      cases hn
  · obtain ⟨b, y, hy, htarget, hn⟩ | ⟨-, hno⟩ := hcases (target L a)
    · obtain rfl := honly b (by rw [hy, Option.isSome_some]) htarget
      exact hn.trans (hy.symm.trans hx)
    · exact absurd rfl (hno a (by rw [hx, Option.isSome_some]))

/-- A list of moves can be brought in an order in which two of them come last. -/
theorem exists_perm_append {e e' : K × K} (he : e ∈ L) (he' : e' ∈ L) (hne : e ≠ e') :
    ∃ R, (R ++ [e, e']).Perm L ∧ (R ++ [e', e]).Perm L := by
  have he'' : e' ∈ L.erase e := (List.mem_erase_of_ne hne.symm).mpr he'
  have hpair : (e :: e' :: (L.erase e).erase e').Perm L :=
    ((List.perm_cons_erase he'').symm.cons e).trans (List.perm_cons_erase he).symm
  refine ⟨(L.erase e).erase e', ?_, ?_⟩
  · exact List.perm_append_comm.trans hpair
  · exact List.perm_append_comm.trans ((List.Perm.swap _ _ _).trans hpair)

omit [DecidableEq K] in
/-- Of moves with different starts, those before the last two do not start where these do. -/
theorem ne_of_nodup_append {R : List (K × K)} {e e' : K × K}
    (hnodup : ((R ++ [e, e']).map Prod.fst).Nodup) : ∀ r ∈ R, e.1 ≠ r.1 ∧ e'.1 ≠ r.1 := by
  rw [List.map_append, List.nodup_append] at hnodup
  intro r hr
  have hdisjoint := hnodup.2.2 r.1 (List.mem_map_of_mem hr)
  exact ⟨(hdisjoint e.1 (by simp)).symm, (hdisjoint e'.1 (by simp)).symm⟩

/-- The last two moves. -/
theorem moves_append_pair (R : List (K × K)) (e e' : K × K) (f : K → Option V) :
    moves (R ++ [e, e']) f = move (move (moves R f) e) e' := by
  simp [moves, List.foldl_append]

/-- Where the order does not matter there is no chain: it would leave a value at its middle only
if its second move comes first. -/
theorem noChain_of_perm (hnodup : (L.map Prod.fst).Nodup)
    (hperm : ∀ L' : List (K × K), L'.Perm L → moves L' f = moves L f) : NoChain L f := by
  intro a b c hab hbc hne hbc'
  by_contra hsome
  have hdistinct : (a, b) ≠ (b, c) := fun h => hne (Prod.mk.inj h).1
  obtain ⟨R, hfirst, hlast⟩ := exists_perm_append hab hbc hdistinct
  have heq := (hperm _ hfirst).trans (hperm _ hlast).symm
  have hR := ne_of_nodup_append ((hfirst.map _).nodup_iff.mpr hnodup)
  have ha := isSome_moves (fun e he => (hR e he).1) (Option.isSome_iff_ne_none.mpr hsome)
  obtain ⟨x, hx⟩ := Option.isSome_iff_exists.mp ha
  have hb : move (move (moves R f) (a, b)) (b, c) b = none := by
    have hb : move (moves R f) (a, b) b = some x := by rw [move_apply hx, if_pos rfl]
    rw [move_apply hb, if_neg hbc', if_pos rfl]
  have hb' : (move (move (moves R f) (b, c)) (a, b) b).isSome := by
    obtain ⟨y, hy⟩ := Option.isSome_iff_exists.mp (isSome_move (a := b) (b := c) hne ha)
    rw [move_apply hy, if_pos rfl]
    rfl
  rw [moves_append_pair, moves_append_pair] at heq
  rw [← congrFun heq b, hb] at hb'
  cases hb'

/-- Where the order does not matter the moves agree: the last of two moves to one key leaves its
value there. -/
theorem agree_of_perm (hnodup : (L.map Prod.fst).Nodup)
    (hperm : ∀ L' : List (K × K), L'.Perm L → moves L' f = moves L f) : Agree L f := by
  have hchain := noChain_of_perm hnodup hperm
  intro a b c hac hbc hane hbne x y hx hy
  by_cases hab : a = b
  · exact Option.some.inj (hx.symm.trans ((congrArg f hab).trans hy))
  have hdistinct : (a, c) ≠ (b, c) := fun h => hab (Prod.mk.inj h).1
  obtain ⟨R, hfirst, hlast⟩ := exists_perm_append hac hbc hdistinct
  have heq := (hperm _ hfirst).trans (hperm _ hlast).symm
  have hnodup' := (hfirst.map Prod.fst).nodup_iff.mpr hnodup
  have hR := ne_of_nodup_append hnodup'
  have hsub : R ⊆ L := fun e he => hfirst.subset (List.mem_append_left _ he)
  have hnodupR : (R.map Prod.fst).Nodup := by
    rw [List.map_append] at hnodup'
    exact hnodup'.of_append_left
  -- No value is moved to a key whose own is moved to the common end.
  have hkept : ∀ k, (k, c) ∈ L → k ≠ c → (∀ e ∈ R, k ≠ e.1) → moves R f k = f k := by
    intro k hkc hkne hstart
    refine (moves_of_untouched hnodupR (hchain.mono hsub) fun p hp hpk => ?_).1
      fun d hd => absurd rfl (hstart _ hd)
    exact hchain p k c (hsub hp) hkc hpk hkne
  have ha := (hkept a hac hane fun e he => (hR e he).1).trans hx
  have hb := (hkept b hbc hbne fun e he => (hR e he).2).trans hy
  have hlastb : move (move (moves R f) (a, c)) (b, c) c = some y := by
    rw [move_apply ((move_of_ne (Ne.symm hab) hbne).trans hb), if_pos rfl]
  have hlasta : move (move (moves R f) (b, c)) (a, c) c = some x := by
    rw [move_apply ((move_of_ne hab hane).trans ha), if_pos rfl]
  rw [moves_append_pair, moves_append_pair] at heq
  exact Option.some.inj (hlasta.symm.trans ((congrFun heq c).symm.trans hlastb))

/-- The order of the moves does not matter exactly if there is no chain and the moves agree. -/
theorem moves_perm_iff (hnodup : (L.map Prod.fst).Nodup) :
    (∀ L' : List (K × K), L'.Perm L → moves L' f = moves L f) ↔ NoChain L f ∧ Agree L f :=
  ⟨fun h => ⟨noChain_of_perm hnodup h, agree_of_perm hnodup h⟩,
    fun h _ hperm => moves_perm hnodup h.1 h.2 hperm⟩

end KeyMoves
