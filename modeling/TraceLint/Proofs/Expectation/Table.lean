import Mathlib.Data.List.Induction
import TraceLint.Proofs.Expectation.Pairing

/-! Expectations as a table keeps them, which has a list of expressions for each instruction that
still expects a finding. A finding cuts the first expression that it meets out of the list of its
instruction. What the table leaves over is what one list of all expectations leaves over. -/
namespace TraceLint.Expectation

/-- Instructions with the expressions of their expectations, each instruction at most once. -/
abbrev Table (ρ : Type) := List (Site × List ρ)

namespace Table

variable {ρ : Type}

/-- The expressions at a site; none if it has no entry. -/
def wantsAt (t : Table ρ) (site : Site) : List ρ := (t.lookup site).getD []

def delete (t : Table ρ) (site : Site) : Table ρ := t.filter fun entry => entry.1 ≠ site

def put (t : Table ρ) (site : Site) (expressions : List ρ) : Table ρ :=
  (site, expressions) :: t.delete site

def add (t : Table ρ) (e : Expectation ρ) : Table ρ :=
  t.put e.site (t.wantsAt e.site ++ [e.expression])

def ofList (wants : List (Expectation ρ)) : Table ρ := wants.foldl add []

/-- A list with nothing left loses its entry. -/
def keep (t : Table ρ) (site : Site) (left : List ρ) : Table ρ :=
  if left.isEmpty then t.delete site else t.put site left

/-- Cuts out the first expression that a finding meets. -/
def meet? (agrees : ρ → Text → Bool) (t : Table ρ) (f : Finding) : Option (Table ρ) :=
  ((t.wantsAt f.site).findIdx? fun expression => agrees expression f.expected).map fun i =>
    t.keep f.site ((t.wantsAt f.site).eraseIdx i)

/-- What findings leave: the ones that nothing expected, in order, and what is left of the table. -/
def settle (agrees : ρ → Text → Bool) (t : Table ρ) : List Finding → List Finding × Table ρ
  | [] => ([], t)
  | f :: rest =>
    match t.meet? agrees f with
    | some left => left.settle agrees rest
    | none => (f :: (t.settle agrees rest).1, (t.settle agrees rest).2)

/-- The expectations of all entries. -/
def surplus (t : Table ρ) : List (Expectation ρ) :=
  t.flatMap fun entry => entry.2.map fun expression => ⟨entry.1, expression⟩

end Table

section

variable {ρ : Type} {agrees : ρ → Text → Bool} {t : Table ρ} {wants left : List (Expectation ρ)}

/-- The expressions at a site in a list of expectations, in order. -/
def expressionsAt (wants : List (Expectation ρ)) (site : Site) : List ρ :=
  (wants.filter fun e => e.site = site).map Expectation.expression

/-- A table has the expectations of a list, those at each site in the same order. -/
structure Groups (t : Table ρ) (wants : List (Expectation ρ)) : Prop where
  keys : (t.map Prod.fst).Nodup
  same : ∀ site, t.wantsAt site = expressionsAt wants site

namespace Table

theorem wantsAt_cons (key : Site) (expressions : List ρ) (rest : Table ρ) (site : Site) :
    wantsAt ((key, expressions) :: rest) site =
      if site = key then expressions else rest.wantsAt site := by
  rw [wantsAt, List.lookup_cons]
  by_cases here : site = key
  · rw [beq_iff_eq.mpr here, if_pos here]
    rfl
  · rw [beq_eq_false_iff_ne.mpr here, if_neg here]
    rfl

theorem wantsAt_delete (t : Table ρ) (site other : Site) :
    (t.delete site).wantsAt other = if other = site then [] else t.wantsAt other := by
  induction t with
  | nil => exact (ite_self _).symm
  | cons entry rest ih =>
    obtain ⟨key, expressions⟩ := entry
    unfold delete at *
    rw [wantsAt_cons]
    by_cases gone : key = site
    · subst gone
      rw [List.filter_cons_of_neg (by simp), ih]
      split <;> rfl
    · rw [List.filter_cons_of_pos (by simpa using gone), wantsAt_cons, ih]
      by_cases here : other = key
      · subst here
        rw [if_pos rfl, if_neg gone, if_pos rfl]
      · rw [if_neg here, if_neg here]

theorem wantsAt_put (t : Table ρ) (site : Site) (expressions : List ρ) (other : Site) :
    (t.put site expressions).wantsAt other =
      if other = site then expressions else t.wantsAt other := by
  rw [put, wantsAt_cons, wantsAt_delete]
  split <;> rfl

theorem keys_delete (keys : (t.map Prod.fst).Nodup) (site : Site) :
    ((t.delete site).map Prod.fst).Nodup :=
  keys.sublist (List.filter_sublist.map Prod.fst)

theorem keys_put (keys : (t.map Prod.fst).Nodup) (site : Site) (expressions : List ρ) :
    ((t.put site expressions).map Prod.fst).Nodup := by
  refine List.nodup_cons.mpr ⟨fun member => ?_, keys_delete keys site⟩
  obtain ⟨entry, kept, same⟩ := List.mem_map.mp member
  exact of_decide_eq_true (List.mem_filter.mp kept).2 same

theorem wantsAt_keep (t : Table ρ) (site : Site) (left : List ρ) (other : Site) :
    (t.keep site left).wantsAt other = if other = site then left else t.wantsAt other := by
  unfold keep
  split
  · rename_i none
    rw [wantsAt_delete, List.isEmpty_iff.mp none]
  · exact wantsAt_put t site left other

theorem keys_keep (keys : (t.map Prod.fst).Nodup) (site : Site) (left : List ρ) :
    ((t.keep site left).map Prod.fst).Nodup := by
  unfold keep
  split
  · exact keys_delete keys site
  · exact keys_put keys site left

end Table

theorem Groups.empty : Groups ([] : Table ρ) [] := ⟨List.nodup_nil, fun _ => rfl⟩

theorem expressionsAt_append (front back : List (Expectation ρ)) (site : Site) :
    expressionsAt (front ++ back) site = expressionsAt front site ++ expressionsAt back site := by
  rw [expressionsAt, List.filter_append, List.map_append]
  rfl

theorem expressionsAt_cons (e : Expectation ρ) (rest : List (Expectation ρ)) (site : Site) :
    expressionsAt (e :: rest) site =
      if site = e.site then e.expression :: expressionsAt rest site
        else expressionsAt rest site := by
  unfold expressionsAt
  by_cases here : e.site = site
  · rw [List.filter_cons_of_pos (by simpa using here), List.map_cons, if_pos here.symm]
  · rw [List.filter_cons_of_neg (by simpa using here), if_neg (Ne.symm here)]

theorem Groups.add (groups : Groups t wants) (e : Expectation ρ) :
    Groups (t.add e) (wants ++ [e]) := by
  refine ⟨Table.keys_put groups.keys _ _, fun site => ?_⟩
  rw [Table.add, Table.wantsAt_put, expressionsAt_append, expressionsAt_cons, groups.same,
    groups.same]
  split
  · rename_i here
    rw [here]
    rfl
  · exact (List.append_nil _).symm

/-- Expectations that are added one by one are grouped by site. -/
theorem groups_ofList (wants : List (Expectation ρ)) : Groups (.ofList wants) wants := by
  induction wants using List.reverseRecOn with
  | nil => exact .empty
  | append_singleton wants e ih =>
    rw [Table.ofList, List.foldl_append]
    exact ih.add e

/-- Where a finding meets no expectation, none of the expressions at its site agrees. -/
theorem findIdx?_expressionsAt {f : Finding} (passed : ∀ e ∈ wants, ¬ Meets agrees f e) :
    (expressionsAt wants f.site).findIdx? (fun x => agrees x f.expected) = none := by
  refine List.findIdx?_eq_none_iff.mpr fun expression listed => ?_
  obtain ⟨e, chosen, rfl⟩ := List.mem_map.mp listed
  obtain ⟨member, here⟩ := List.mem_filter.mp chosen
  exact Bool.eq_false_iff.mpr fun agreed => passed e member ⟨of_decide_eq_true here, agreed⟩

theorem Groups.unmet (groups : Groups t wants) {f : Finding} (unmet : meet? agrees f wants = none) :
    t.meet? agrees f = none := by
  rw [Table.meet?, groups.same, findIdx?_expressionsAt (meet?_eq_none_iff.mp unmet)]
  rfl

/-- The first expectation that a finding meets is the first that agrees of those at its site. -/
theorem Groups.met (groups : Groups t wants) {f : Finding}
    (met : meet? agrees f wants = some left) :
    ∃ t', t.meet? agrees f = some t' ∧ Groups t' left := by
  obtain ⟨front, e, back, rfl, rfl, ⟨here, agreed⟩, passed⟩ := meet?_eq_some_iff.mp met
  have split (site : Site) : t.wantsAt site = expressionsAt front site ++
      if site = f.site then e.expression :: expressionsAt back site
        else expressionsAt back site := by
    rw [groups.same, expressionsAt_append, expressionsAt_cons, here]
  have own := split f.site
  rw [if_pos rfl] at own
  have found : (t.wantsAt f.site).findIdx? (fun x => agrees x f.expected) =
      some (expressionsAt front f.site).length := by
    rw [own, List.findIdx?_append, findIdx?_expressionsAt passed, List.findIdx?_cons, agreed]
    simp
  have cut : (t.wantsAt f.site).eraseIdx (expressionsAt front f.site).length =
      expressionsAt front f.site ++ expressionsAt back f.site := by
    rw [own, List.eraseIdx_append_of_length_le (Nat.le_refl _), Nat.sub_self]
    rfl
  refine ⟨_, by rw [Table.meet?, found]; rfl, Table.keys_keep groups.keys _ _, fun site => ?_⟩
  rw [Table.wantsAt_keep, cut, expressionsAt_append]
  split
  · rename_i same
    rw [same]
  · rename_i other
    rw [split site, if_neg other]

/-- Findings leave the same in the table and in the list. -/
theorem Groups.settle (groups : Groups t wants) (agrees : ρ → Text → Bool)
    (findings : List Finding) :
    (t.settle agrees findings).1 = (settle agrees wants findings).1 ∧
      Groups (t.settle agrees findings).2 (settle agrees wants findings).2 := by
  induction findings generalizing t wants with
  | nil => exact ⟨rfl, groups⟩
  | cons f rest ih =>
    cases met : meet? agrees f wants with
    | some left =>
      obtain ⟨t', found, kept⟩ := groups.met met
      rw [settle_met met, Table.settle, found]
      exact ih kept
    | none =>
      obtain ⟨same, kept⟩ := ih groups
      rw [settle_unmet met, Table.settle, groups.unmet met]
      exact ⟨congrArg (f :: ·) same, kept⟩

/-- Lists that have the same items of each kind in the same order have the same items. -/
theorem perm_of_filter {α κ : Type} [DecidableEq κ] (key : α → κ) {xs ys : List α}
    (same : ∀ k, xs.filter (fun x => key x = k) = ys.filter fun y => key y = k) : xs.Perm ys := by
  induction xs generalizing ys with
  | nil =>
    cases ys with
    | nil => exact .nil
    | cons y ys =>
      have one := same (key y)
      rw [List.filter_cons_of_pos (by simp)] at one
      contradiction
  | cons x xs ih =>
    have own := same (key x)
    rw [List.filter_cons_of_pos (by simp)] at own
    obtain ⟨front, back, rfl, passed, _, rest⟩ := List.filter_eq_cons_iff.mp own.symm
    refine (List.Perm.cons x (ih fun k => ?_)).trans List.perm_middle.symm
    have kind := same k
    rw [List.filter_append] at kind ⊢
    by_cases here : key x = k
    · have none : front.filter (fun y => key y = k) = [] :=
        List.filter_eq_nil_iff.mpr (here ▸ passed)
      rw [none, List.nil_append, ← here, rest]
    · rw [List.filter_cons_of_neg (by simpa using here),
        List.filter_cons_of_neg (by simpa using here)] at kind
      exact kind

theorem Table.filter_surplus (keys : (t.map Prod.fst).Nodup) (site : Site) :
    t.surplus.filter (fun e => e.site = site) = (t.wantsAt site).map (Expectation.mk site) := by
  induction t with
  | nil => rfl
  | cons entry rest ih =>
    obtain ⟨key, expressions⟩ := entry
    obtain ⟨fresh, keys⟩ := List.nodup_cons.mp keys
    have parts : surplus ((key, expressions) :: rest) =
      expressions.map (Expectation.mk key) ++ surplus rest := rfl
    rw [parts, List.filter_append, ih keys, wantsAt_cons]
    split
    · rename_i here
      subst here
      have absent : wantsAt rest site = [] := by
        rw [wantsAt, List.lookup_eq_none_iff.mpr]
        · rfl
        · exact fun entry member =>
            bne_iff_ne.mpr fun same => fresh (List.mem_map.mpr ⟨entry, member, same.symm⟩)
      have all : (expressions.map (Expectation.mk site)).filter (fun e => e.site = site) =
          expressions.map (Expectation.mk site) :=
        List.filter_eq_self.mpr (List.forall_mem_map.mpr fun _ _ => decide_eq_true rfl)
      rw [absent, all, List.map_nil, List.append_nil]
    · rename_i other
      have none : (expressions.map (Expectation.mk key)).filter (fun e => e.site = site) = [] :=
        List.filter_eq_nil_iff.mpr (List.forall_mem_map.mpr fun _ _ => by simpa using Ne.symm other)
      rw [none, List.nil_append]

/-- The entries of the table are all the expectations of the list. -/
theorem Groups.surplus (groups : Groups t wants) : t.surplus.Perm wants := by
  refine perm_of_filter Expectation.site fun site => ?_
  rw [Table.filter_surplus groups.keys, groups.same, expressionsAt, List.map_map]
  refine (List.map_congr_left fun e chosen => ?_).trans (List.map_id _)
  obtain rfl : e.site = site := of_decide_eq_true (List.mem_filter.mp chosen).2
  rfl

end

/-- What each result shows of its item, all results show of all items. -/
theorem map_of_mapM {ε α β γ : Type} {f : α → Except ε β} {xs : List α} {ys : List β}
    (done : xs.mapM f = .ok ys) {view : β → γ} (source : α → γ)
    (each : ∀ x y, f x = .ok y → view y = source x) : ys.map view = xs.map source := by
  induction xs generalizing ys with
  | nil =>
    cases done
    rfl
  | cons x rest ih =>
    rw [List.mapM_cons] at done
    cases here : f x with
    | error fault =>
      rw [here] at done
      cases done
    | ok y =>
      cases later : rest.mapM f with
      | error fault =>
        rw [here, later] at done
        cases done
      | ok others =>
        rw [here, later] at done
        cases done
        rw [List.map_cons, List.map_cons, each x y here, ih later]

section Sources

/-- The texts that some expectations were read from. -/
def sources (wants : List (Expectation Expression)) : List Text :=
  wants.map fun e => e.expression.source

theorem sources_flatten (parts : List (List (Expectation Expression))) :
    sources parts.flatten = (parts.map sources).flatten := List.map_flatten

theorem sources_ofInstruction {cls method desc : Text} {i : Trace.InstructionRecord}
    {wants : List (Expectation Expression)} (read : ofInstruction cls method desc i = .ok wants) :
    sources wants = i.want.getD [] := by
  refine (map_of_mapM read id fun want e made => ?_).trans (List.map_id _)
  dsimp only at made
  split at made
  · obtain rfl := Except.ok.inj made
    rfl
  · contradiction

/-- A trace that can be read gives one expectation for each of its entries, in document order. -/
theorem sources_ofFile {f : Trace.File} {wants : List (Expectation Expression)}
    (read : ofFile f = .ok wants) : sources wants = f.wants := by
  have methods (c : Trace.ClassRecord) (m : Trace.MethodRecord)
      (parts : List (List (Expectation Expression)))
      (read : (m.code.getD []).mapM (ofInstruction c.name m.name m.desc) = .ok parts) :
      sources parts.flatten = (m.code.getD []).flatMap fun i => i.want.getD [] := by
    rw [sources_flatten]
    exact congrArg List.flatten (map_of_mapM read _ fun i _ => sources_ofInstruction)
  have classes (c : Trace.ClassRecord) (parts : List (List (List (Expectation Expression))))
      (read : ((c.methods.getD []).mapM fun m =>
        (m.code.getD []).mapM (ofInstruction c.name m.name m.desc)) = .ok parts) :
      sources (parts.map List.flatten).flatten =
        (c.methods.getD []).flatMap fun m => (m.code.getD []).flatMap fun i => i.want.getD [] := by
    rw [sources_flatten, List.map_map]
    exact congrArg List.flatten (map_of_mapM read _ fun m parts => methods c m parts)
  unfold ofFile at read
  cases found : (f.classes.getD []).mapM fun c => (c.methods.getD []).mapM fun m =>
      (m.code.getD []).mapM (ofInstruction c.name m.name m.desc) with
  | error fault =>
    rw [found] at read
    contradiction
  | ok parts =>
    rw [found] at read
    obtain rfl := Except.ok.inj read
    rw [sources_flatten, List.map_map]
    exact congrArg List.flatten (map_of_mapM found _ fun c parts => classes c parts)

end Sources

/-- Texts in another order are the same when they are sorted. -/
theorem sort_of_perm {xs ys : List Text} (shuffled : xs.Perm ys) : Text.sort xs = Text.sort ys := by
  have same : (Text.sort xs).Perm (Text.sort ys) :=
    (List.mergeSort_perm xs _).trans (shuffled.trans (List.mergeSort_perm ys _).symm)
  exact same.eq_of_pairwise (fun _ _ _ _ => List.le_antisymm) (Text.sort_ordered xs)
    (Text.sort_ordered ys)

/-- A suite is judged as with a table: the same findings are unexpected, and the lines of the
expectations that are left over are the same. -/
theorem test_in_table (catalog : Catalog) (root : Analysis.Id) (s : Suite Expression) :
    let settled := (Table.ofList s.wants).settle Expression.agrees (s.reported catalog root)
    settled.1 = (s.test Expression.agrees catalog root).unexpected ∧
    Text.sort (settled.2.surplus.map unmetLine) =
      Text.sort ((s.test Expression.agrees catalog root).unmet.map unmetLine) := by
  obtain ⟨unexpected, unmet⟩ := test_eq_settle Expression.agrees catalog root s
  obtain ⟨same, kept⟩ := (groups_ofList s.wants).settle Expression.agrees (s.reported catalog root)
  rw [unexpected, unmet]
  exact ⟨same, sort_of_perm (kept.surplus.map unmetLine)⟩

end TraceLint.Expectation
