import Mathlib.Data.Multiset.Filter
import TraceLint.Proofs.Expectation.Pairing

/-! Which pairings a test finds. Each finding takes the first expectation that it meets and never
gives it back, so the order of the expectations matters: a wide expression before a narrow one can
take the only finding that the narrow one matches. Where wide ones come last, every pairing is
found. -/
namespace TraceLint.Expectation

/-- Two partners may leave a correspondence together, if whoever is left behind can take the other's
partner. -/
theorem rel_exchange {α β : Type} {r : α → β → Prop} {a : α} {b : β} {as : Multiset α}
    {bs : Multiset β} (related : Multiset.Rel r (a ::ₘ as) (b ::ₘ bs))
    (swap : ∀ b' ∈ bs, r a b' → ∀ a' ∈ as, r a' b → r a' b') : Multiset.Rel r as bs := by
  obtain ⟨b', others, own, rest, same⟩ := Multiset.rel_cons_left.mp related
  rcases Multiset.cons_eq_cons.mp same with ⟨rfl, rfl⟩ | ⟨_, shared, rfl, rfl⟩
  · exact rest
  · obtain ⟨a', as', taken, pairs, rfl⟩ := Multiset.rel_cons_right.mp rest
    exact .cons (swap b' (Multiset.mem_cons_self _ _) own a' (Multiset.mem_cons_self _ _) taken)
      pairs

variable {ρ : Type}

/-- Of two expectations that a finding meets, the later one is met by every further finding that
meets the earlier. -/
def Graded (agrees : ρ → Text → Bool) (findings : List Finding)
    (wants : List (Expectation ρ)) : Prop :=
  wants.Pairwise fun e e' => ∀ f f', [f, f'].Sublist findings →
    Meets agrees f e → Meets agrees f e' → Meets agrees f' e → Meets agrees f' e'

/-- Two expectations that a finding meets are met by the same further findings. -/
def Interchangeable (agrees : ρ → Text → Bool) (findings : List Finding)
    (wants : List (Expectation ρ)) : Prop :=
  ∀ e ∈ wants, ∀ e' ∈ wants, ∀ f f', [f, f'].Sublist findings →
    Meets agrees f e → Meets agrees f e' → Meets agrees f' e → Meets agrees f' e'

def Alike (agrees : ρ → Text → Bool) (findings : List Finding) (e e' : Expectation ρ) : Prop :=
  ∀ f ∈ findings, Meets agrees f e ↔ Meets agrees f e'

section

variable {agrees : ρ → Text → Bool} {findings : List Finding} {wants : List (Expectation ρ)}

theorem Graded.sublist (graded : Graded agrees findings wants) {findings' : List Finding}
    {wants' : List (Expectation ρ)} (fewer : findings'.Sublist findings)
    (fewer' : wants'.Sublist wants) :
    Graded agrees findings' wants' :=
  (List.Pairwise.sublist fewer' graded).imp fun swap f f' listed => swap f f' (listed.trans fewer)

/-- It is enough to look at which findings there are, and not at their order. -/
theorem Graded.of_mem
    (graded : wants.Pairwise fun e e' => ∀ f ∈ findings, Meets agrees f e → Meets agrees f e' →
      ∀ f' ∈ findings, Meets agrees f' e → Meets agrees f' e') : Graded agrees findings wants := by
  refine graded.imp fun swap f f' listed first second => ?_
  exact swap f (listed.subset List.mem_cons_self) first second f' (listed.subset (by simp))

theorem Interchangeable.of_mem (same : ∀ e ∈ wants, ∀ e' ∈ wants, ∀ f ∈ findings, Meets agrees f e →
    Meets agrees f e' → ∀ f' ∈ findings, Meets agrees f' e → Meets agrees f' e') :
    Interchangeable agrees findings wants := by
  intro e member e' member' f f' listed first second
  exact same e member e' member' f (listed.subset List.mem_cons_self) first second f'
    (listed.subset (by simp))

/-- The first expectation that a finding meets can be spared: what the finding was paired with
instead will do for the one that comes away empty-handed. -/
theorem Graded.spare {f : Finding} {rest : List Finding} {front back : List (Expectation ρ)}
    {e : Expectation ρ} (graded : Graded agrees (f :: rest) (front ++ e :: back))
    (first : Meets agrees f e) (passed : ∀ x ∈ front, ¬ Meets agrees f x)
    (paired : Paired agrees (f :: rest) (front ++ e :: back)) :
    Paired agrees rest (front ++ back) := by
  have taken : ((front ++ e :: back : List (Expectation ρ)) : Multiset (Expectation ρ)) =
      e ::ₘ ((front ++ back : List (Expectation ρ)) : Multiset (Expectation ρ)) :=
    Multiset.coe_eq_coe.mpr List.perm_middle
  rw [Paired, taken, ← Multiset.cons_coe] at paired
  refine rel_exchange paired fun e' member meets f' behind narrow => ?_
  rcases List.mem_append.mp (Multiset.mem_coe.mp member) with before | after
  · exact absurd meets (passed e' before)
  · have later := (List.pairwise_cons.mp (List.pairwise_append.mp graded).2.1).1 e' after
    have listed : [f, f'].Sublist (f :: rest) :=
      (List.singleton_sublist.mpr (Multiset.mem_coe.mp behind)).cons_cons f
    exact later f f' listed first meets narrow

theorem Graded.settles (graded : Graded agrees findings wants)
    (paired : Paired agrees findings wants) :
    settle agrees wants findings = ([], []) := by
  induction findings generalizing wants with
  | nil =>
    obtain rfl : wants = [] := (Multiset.coe_eq_zero wants).mp (Multiset.rel_zero_left.mp paired)
    rfl
  | cons f rest ih =>
    cases found : meet? agrees f wants with
    | none =>
      obtain ⟨e, member, meets⟩ :=
        Multiset.exists_mem_of_rel_of_mem paired (Multiset.mem_coe.mpr List.mem_cons_self)
      exact absurd meets (meet?_eq_none_iff.mp found e (Multiset.mem_coe.mp member))
    | some left =>
      rw [settle_met found]
      obtain ⟨front, e, back, rfl, rfl, meets, passed⟩ := meet?_eq_some_iff.mp found
      have fewer : (front ++ back).Sublist (front ++ e :: back) :=
        (List.sublist_cons_self e back).append_left front
      exact ih (graded.sublist (List.sublist_cons_self f rest) fewer)
        (graded.spare meets passed paired)

/-- Grading is just what it takes: without it, two of the findings and two of the expectations can
be paired but are not. -/
theorem graded_iff : Graded agrees findings wants ↔
    ∀ findings' wants', findings'.Sublist findings → wants'.Sublist wants →
      Paired agrees findings' wants' →
      settle agrees wants' findings' = ([], []) := by
  constructor
  · intro graded findings' wants' fewer fewer' paired
    exact (graded.sublist fewer fewer').settles paired
  · intro settles
    refine List.pairwise_iff_forall_sublist.mpr
      fun {e e'} ordered f f' listed first second narrow => ?_
    by_contra wide
    have paired : Paired agrees [f, f'] [e, e'] := by
      have swapped :
          Multiset.Rel (Meets agrees) ([f, f'] : List Finding) ([e', e] : List (Expectation ρ)) :=
        .cons second (.cons narrow .zero)
      rwa [Paired, Multiset.coe_eq_coe.mpr (List.Perm.swap e' e [])]
    have settled := settles _ _ listed ordered paired
    have taken : meet? agrees f [e, e'] = some [e'] := by rw [meet?_cons, if_pos first]
    have refused : meet? agrees f' [e'] = none := meet?_eq_none_iff.mpr (by simpa using wide)
    rw [settle_met taken, settle_unmet refused] at settled
    exact List.cons_ne_nil _ _ (congrArg Prod.fst settled)

theorem Interchangeable.tail {f : Finding} {rest : List Finding}
    (same : Interchangeable agrees (f :: rest) wants) {fewer : List (Expectation ρ)}
    (within : ∀ e ∈ fewer, e ∈ wants) : Interchangeable agrees rest fewer := by
  intro e member e' member' x y listed
  exact same e (within e member) e' (within e' member') x y (listed.cons f)

/-- Expectations that are alike one by one leave the same findings over, whichever of them are taken
on either side. -/
theorem settle_of_alike {wants' : List (Expectation ρ)}
    (same : Interchangeable agrees findings wants')
    (alike : Multiset.Rel (Alike agrees findings) wants wants') :
    (settle agrees wants findings).1 = (settle agrees wants' findings).1 := by
  induction findings generalizing wants wants' with
  | nil => rfl
  | cons f rest ih =>
    have further {ws ws' : List (Expectation ρ)}
        (related : Multiset.Rel (Alike agrees (f :: rest)) ws ws') :
        Multiset.Rel (Alike agrees rest) ws ws' :=
      related.mono fun _ _ _ _ alike x member => alike x (List.mem_cons_of_mem f member)
    cases found : meet? agrees f wants with
    | none =>
      have refused : meet? agrees f wants' = none := by
        refine meet?_eq_none_iff.mpr fun e' member meets => ?_
        obtain ⟨e, member, like⟩ :=
          Multiset.exists_mem_of_rel_of_mem (Multiset.rel_flip.mpr alike)
            (Multiset.mem_coe.mpr member)
        exact meet?_eq_none_iff.mp found e (Multiset.mem_coe.mp member)
          ((like f List.mem_cons_self).mpr meets)
      rw [settle_unmet found, settle_unmet refused,
        ih (same.tail fun _ member => member) (further alike)]
    | some left =>
      obtain ⟨e, meets, taken⟩ := exists_met found
      rw [taken] at alike
      cases found' : meet? agrees f wants' with
      | none =>
        obtain ⟨e', member, like⟩ :=
          Multiset.exists_mem_of_rel_of_mem alike (Multiset.mem_cons_self e _)
        exact absurd ((like f List.mem_cons_self).mp meets)
          (meet?_eq_none_iff.mp found' e' (Multiset.mem_coe.mp member))
      | some left' =>
        obtain ⟨e', meets', taken'⟩ := exists_met found'
        have within : ∀ x ∈ left', x ∈ wants' := fun x member =>
          Multiset.mem_coe.mp (taken' ▸ Multiset.mem_cons_of_mem (Multiset.mem_coe.mpr member))
        have member' : e' ∈ wants' := Multiset.mem_coe.mp (taken' ▸ Multiset.mem_cons_self e' _)
        rw [taken'] at alike
        rw [settle_met found, settle_met found']
        refine ih (same.tail within) (further (rel_exchange alike ?_))
        -- The partner of the one that was taken is met by the same finding, so it stands in for the
        -- other.
        intro o member like x _ likes y listed
        have partner : o ∈ wants' := within o (Multiset.mem_coe.mp member)
        have own : Meets agrees f o := (like f List.mem_cons_self).mp meets
        rw [likes y listed]
        rcases List.mem_cons.mp listed with rfl | later
        · exact iff_of_true meets' own
        · have ordered : [f, y].Sublist (f :: rest) :=
            (List.singleton_sublist.mpr later).cons_cons f
          exact ⟨same e' member' o partner f y ordered meets' own,
            same o partner e' member' f y ordered own meets'⟩

theorem settle_of_perm (same : Interchangeable agrees findings wants) {order : List (Expectation ρ)}
    (shuffled : order.Perm wants) :
    (settle agrees order findings).1 = (settle agrees wants findings).1 ∧
    (settle agrees order findings).2.length = (settle agrees wants findings).2.length := by
  have alike : Multiset.Rel (Alike agrees findings) order wants := by
    rw [Multiset.coe_eq_coe.mpr shuffled]
    exact Multiset.rel_refl_of_refl_on fun _ _ _ _ => Iff.rfl
  have unexpected := settle_of_alike same alike
  refine ⟨unexpected, ?_⟩
  have counts := settle_counts agrees order findings
  have counts' := settle_counts agrees wants findings
  rw [unexpected, shuffled.length_eq] at counts
  omega

theorem rel_filter_site {fs : Multiset Finding} {ws : Multiset (Expectation ρ)}
    (related : Multiset.Rel (Meets agrees) fs ws) (site : Site) :
    Multiset.Rel (Meets agrees) (fs.filter fun f => f.site = site)
      (ws.filter fun e => e.site = site) := by
  induction related with
  | zero => exact .zero
  | @cons f e fs ws meets _ ih =>
    by_cases here : f.site = site
    · rw [Multiset.filter_cons_of_pos fs here, Multiset.filter_cons_of_pos ws (meets.1.trans here)]
      exact .cons meets ih
    · rw [Multiset.filter_cons_of_neg fs here, Multiset.filter_cons_of_neg ws (meets.1 ▸ here)]
      exact ih

theorem rel_of_sites {fs : Multiset Finding} {ws : Multiset (Expectation ρ)}
    (related : ∀ site : Site, Multiset.Rel (Meets agrees) (fs.filter fun f => f.site = site)
      (ws.filter fun e => e.site = site)) : Multiset.Rel (Meets agrees) fs ws := by
  induction fs using Multiset.induction_on generalizing ws with
  | empty =>
    have none : ws = 0 := by
      refine Multiset.eq_zero_of_forall_notMem fun e member => ?_
      have empty := Multiset.rel_zero_left.mp (related e.site)
      exact Multiset.notMem_zero e (empty ▸ Multiset.mem_filter.mpr ⟨member, rfl⟩)
    rw [none]
    exact .zero
  | cons f fs ih =>
    -- The partner at the instruction of the first finding is taken out, which no other instruction
    -- notices.
    obtain ⟨e, es, meets, pairs, same⟩ : ∃ e es, Meets agrees f e ∧
        Multiset.Rel (Meets agrees) (fs.filter fun x => x.site = f.site) es ∧
        ws.filter (fun e => e.site = f.site) = e ::ₘ es := by
      have own := related f.site
      rwa [Multiset.filter_cons, if_pos rfl, Multiset.singleton_add, Multiset.rel_cons_left] at own
    have member : e ∈ ws := (Multiset.mem_filter.mp (same ▸ Multiset.mem_cons_self e es)).1
    obtain ⟨ws, rfl⟩ := Multiset.exists_cons_of_mem member
    refine .cons meets (ih fun site => ?_)
    by_cases here : f.site = site
    · subst here
      rw [Multiset.filter_cons_of_pos ws meets.1] at same
      rw [(Multiset.cons_inj_right e).mp same]
      exact pairs
    · have others := related site
      rwa [Multiset.filter_cons_of_neg fs here,
        Multiset.filter_cons_of_neg ws (meets.1 ▸ here)] at others

theorem paired_iff_sites : Paired agrees findings wants ↔ ∀ site : Site,
    Paired agrees (findings.filter fun f => f.site = site)
      (wants.filter fun e => e.site = site) := by
  simp only [Paired, ← Multiset.filter_coe]
  exact ⟨rel_filter_site, rel_of_sites⟩

end

/-- Given that wide expectations come last, a test leaves nothing over exactly where findings and
expectations correspond one to one at each instruction. Where expectations that a finding meets can
stand in for each other, their order changes neither the findings that are unexpected nor how many
expectations are unmet. -/
theorem paired_tests_pass (agrees : ρ → Text → Bool) (catalog : Catalog) (root : Analysis.Id)
    (s : Suite ρ) :
    (Graded agrees (s.reported catalog root) s.wants →
      ((∀ site : Site, Paired agrees ((s.reported catalog root).filter fun f => f.site = site)
          (s.wants.filter fun e => e.site = site)) ↔
        (s.test agrees catalog root).unexpected = [] ∧ (s.test agrees catalog root).unmet = [])) ∧
    (Interchangeable agrees (s.reported catalog root) s.wants → ∀ order, order.Perm s.wants →
      (Suite.test agrees catalog root { s with wants := order }).unexpected =
          (s.test agrees catalog root).unexpected ∧
        (Suite.test agrees catalog root { s with wants := order }).unmet.length =
          (s.test agrees catalog root).unmet.length) := by
  obtain ⟨unexpected, unmet⟩ := test_eq_settle agrees catalog root s
  constructor
  · intro graded
    rw [unexpected, unmet, ← paired_iff_sites]
    constructor
    · intro paired
      rw [graded_iff.mp graded _ _ (.refl _) (.refl _) paired]
      exact ⟨rfl, rfl⟩
    · rintro ⟨unexpected, unmet⟩
      exact paired_of_settled unexpected unmet
  · intro same order shuffled
    obtain ⟨unexpected', unmet'⟩ := test_eq_settle agrees catalog root { s with wants := order }
    rw [unexpected, unmet, unexpected', unmet']
    exact settle_of_perm same shuffled

/-- The narrow expression comes before the wide one, so both findings are paired; and two
expressions that match one finding each may come in either order. -/
theorem signs_tests_pass :
    ((signsSuite ["SIGN_ONLY", "SLF4J"]).test Expression.agrees
      (Logging.catalog true) 1).unexpected = [] ∧
    ((signsSuite ["SIGN_ONLY", "SLF4J"]).test Expression.agrees
      (Logging.catalog true) 1).unmet = [] ∧
    ((signsSuite ["MISMATCH", "SIGN_ONLY"]).test Expression.agrees
      (Logging.catalog true) 1).unexpected =
      ((signsSuite ["SIGN_ONLY", "MISMATCH"]).test Expression.agrees
        (Logging.catalog true) 1).unexpected := by
  have paired := paired_iff_sites.mp (paired_of_settled signs_settled.1 signs_settled.2)
  obtain ⟨found, _⟩ :=
    paired_tests_pass Expression.agrees (Logging.catalog true) 1 (signsSuite ["SIGN_ONLY", "SLF4J"])
  obtain ⟨_, ordered⟩ := paired_tests_pass Expression.agrees (Logging.catalog true) 1
    (signsSuite ["SIGN_ONLY", "MISMATCH"])
  obtain ⟨unexpected, unmet⟩ := (found (.of_mem (by decide +kernel))).mp paired
  exact ⟨unexpected, unmet, (ordered (.of_mem (by decide +kernel)) _ (List.Perm.swap _ _ [])).1⟩

/-- The wide expression takes the finding that only the narrow one matches, although another pairing
leaves nothing over. -/
theorem wide_before_narrow_fails : ¬ ∀ s : Suite Expression,
    (∀ site : Site, Paired Expression.agrees
      ((s.reported (Logging.catalog true) 1).filter fun f => f.site = site)
      (s.wants.filter fun e => e.site = site)) →
    (s.test Expression.agrees (Logging.catalog true) 1).unexpected = [] ∧
      (s.test Expression.agrees (Logging.catalog true) 1).unmet = [] := by
  have swapped :
      (signsSuite ["SLF4J", "SIGN_ONLY"]).wants.Perm (signsSuite ["SIGN_ONLY", "SLF4J"]).wants :=
    List.Perm.swap _ _ []
  have paired : Paired Expression.agrees
      ((signsSuite ["SLF4J", "SIGN_ONLY"]).reported (Logging.catalog true) 1)
      (signsSuite ["SLF4J", "SIGN_ONLY"]).wants := by
    rw [Paired, Multiset.coe_eq_coe.mpr swapped]
    exact paired_of_settled signs_settled.1 signs_settled.2
  have left :
      ((signsSuite ["SLF4J", "SIGN_ONLY"]).test Expression.agrees
        (Logging.catalog true) 1).unmet.length = 1 := by
    decide +kernel
  intro always
  obtain ⟨_, unmet⟩ := always _ (paired_iff_sites.mp paired)
  rw [unmet] at left
  contradiction

end TraceLint.Expectation
