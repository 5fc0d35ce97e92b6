import Netscribe.Proofs.Design.Acyclic

/-!
# The search for cycles, step by step

The search of the library counts levels, so that it is a recursion that ends.  This file has the
search as it goes on without any count, with the circuits that it enters on its way.  It ends
whatever the hierarchy looks like, so the levels never run out.  It enters no circuit twice, and
what it comes to tells whether some circuit is below itself.

* `Design.Search` — the course of the search.
* `Design.Search.unique`, `Design.exists_search` — there is exactly one, and it comes to what the
  search with levels comes to.
* `Design.Search.perm` — what is entered is finished.
* `Design.Search.cause` — why a search ends early.
* `Design.checkAcyclic_eq_ok_iff` — which designs pass.
* **`Design.checkAcyclic_search`** — the search is sound and complete, and enters no circuit twice.
-/

namespace Netscribe.Design

open Relation

/-- **The course of the search** below some circuits, one after the other, which were reached along
a path: the circuits that it enters, in order, and what it comes to.  A circuit is entered when the
search goes on below its instances. -/
inductive Search (d : Design) : (path ids finished entered : List UInt32) →
    (result : Except DesignError (List UInt32)) → Prop
  /-- Nothing is left to be searched. -/
  | nil {path finished} : Search d path [] finished [] (.ok finished)
  /-- A finished circuit is passed over. -/
  | pass {path id ids finished entered result} : id ∈ finished →
      Search d path ids finished entered result → Search d path (id :: ids) finished entered result
  /-- A reference leads nowhere. -/
  | missing {path id ids finished} : id ∉ finished → d.circuit? id = none →
      Search d path (id :: ids) finished [] (.error (.unknownCircuit id))
  /-- A circuit of the path is met again. -/
  | again {path id ids finished c} : id ∉ finished → d.circuit? id = some c → id ∈ path →
      Search d path (id :: ids) finished [] (.error (.cyclicHierarchy c.name))
  /-- A circuit is entered, and below it the search ends early. -/
  | fail {path id ids finished c below cause} : id ∉ finished → d.circuit? id = some c →
      id ∉ path → Search d (id :: path) c.netlist.children finished below (.error cause) →
      Search d path (id :: ids) finished (id :: below) (.error cause)
  /-- A circuit is entered and finished, and the search goes on. -/
  | enter {path id ids finished c below finished' next result} : id ∉ finished →
      d.circuit? id = some c → id ∉ path →
      Search d (id :: path) c.netlist.children finished below (.ok finished') →
      Search d path ids (id :: finished') next result →
      Search d path (id :: ids) finished (id :: (below ++ next)) result

variable {d : Design} {levels : ℕ} {path ids finished entered : List UInt32}
  {result : Except DesignError (List UInt32)}

/-! ## One course -/

/-- **A search has one course only.** -/
theorem Search.unique {entered' : List UInt32} {result' : Except DesignError (List UInt32)}
    (h : d.Search path ids finished entered result)
    (h' : d.Search path ids finished entered' result') : entered = entered' ∧ result = result' := by
  induction h generalizing entered' result' with
  | nil =>
      cases h'
      exact ⟨rfl, rfl⟩
  | pass hfinished _ ih =>
      cases h' with
      | pass _ hrest => exact ih hrest
      | missing hnot _ => exact absurd hfinished hnot
      | again hnot _ _ => exact absurd hfinished hnot
      | fail hnot _ _ _ => exact absurd hfinished hnot
      | enter hnot _ _ _ _ => exact absurd hfinished hnot
  | missing hnot hnone =>
      cases h' with
      | pass hfinished _ => exact absurd hfinished hnot
      | missing _ _ => exact ⟨rfl, rfl⟩
      | again _ hc _ => cases hnone.symm.trans hc
      | fail _ hc _ _ => cases hnone.symm.trans hc
      | enter _ hc _ _ _ => cases hnone.symm.trans hc
  | again hnot hc hpath =>
      cases h' with
      | pass hfinished _ => exact absurd hfinished hnot
      | missing _ hnone => cases hnone.symm.trans hc
      | again _ hc' _ =>
          obtain rfl := Option.some.inj (hc.symm.trans hc')
          exact ⟨rfl, rfl⟩
      | fail _ _ hopen _ => exact absurd hpath hopen
      | enter _ _ hopen _ _ => exact absurd hpath hopen
  | fail hnot hc hopen _ ih =>
      cases h' with
      | pass hfinished _ => exact absurd hfinished hnot
      | missing _ hnone => cases hnone.symm.trans hc
      | again _ _ hpath => exact absurd hpath hopen
      | fail _ hc' _ hbelow =>
          obtain rfl := Option.some.inj (hc.symm.trans hc')
          obtain ⟨rfl, hcause⟩ := ih hbelow
          exact ⟨rfl, hcause⟩
      | enter _ hc' _ hbelow _ =>
          obtain rfl := Option.some.inj (hc.symm.trans hc')
          cases (ih hbelow).2
  | enter hnot hc hopen _ _ ihbelow ihnext =>
      cases h' with
      | pass hfinished _ => exact absurd hfinished hnot
      | missing _ hnone => cases hnone.symm.trans hc
      | again _ _ hpath => exact absurd hpath hopen
      | fail _ hc' _ hbelow =>
          obtain rfl := Option.some.inj (hc.symm.trans hc')
          cases (ihbelow hbelow).2
      | enter _ hc' _ hbelow hnext =>
          obtain rfl := Option.some.inj (hc.symm.trans hc')
          obtain ⟨rfl, hfinished⟩ := ihbelow hbelow
          obtain rfl := Except.ok.inj hfinished
          obtain ⟨rfl, rfl⟩ := ihnext hnext
          exact ⟨rfl, rfl⟩

/-- **The search ends**, and comes to what the search with levels comes to, as long as these are
enough for a path through all circuits. -/
theorem exists_search (h : Searching d levels path finished) (ids : List UInt32) :
    ∃ entered, d.Search path ids finished entered
      (ids.foldlM (fun finished id => d.explore levels path id finished) finished) := by
  induction levels generalizing path ids finished with
  | zero => exact absurd h.pos (by omega)
  | succ levels ih =>
      induction ids generalizing finished with
      | nil => exact ⟨[], .nil⟩
      | cons id ids ihids =>
          rw [List.foldlM_cons]
          by_cases hfinished : id ∈ finished
          · obtain ⟨entered, hrest⟩ := ihids h
            rw [explore, if_pos hfinished]
            exact ⟨entered, .pass hfinished hrest⟩
          cases hc : d.circuit? id with
          | none =>
              rw [explore, if_neg hfinished, hc]
              exact ⟨[], .missing hfinished hc⟩
          | some c =>
              by_cases hpath : id ∈ path
              · simp only [explore, if_neg hfinished, hc, if_pos hpath]
                exact ⟨[], .again hfinished hc hpath⟩
              obtain ⟨below, hbelow⟩ := ih (h.push hc hfinished hpath) c.netlist.children
              simp only [explore, if_neg hfinished, hc, if_neg hpath]
              cases hchildren : c.netlist.children.foldlM
                  (fun finished child => d.explore levels (id :: path) child finished) finished with
              | error cause =>
                  rw [hchildren] at hbelow
                  exact ⟨id :: below, .fail hfinished hc hpath hbelow⟩
              | ok finished' =>
                  rw [hchildren] at hbelow
                  -- the circuit is finished now, and the search stays in order
                  have hone : d.explore (levels + 1) path id finished = .ok (id :: finished') := by
                    simp only [explore, if_neg hfinished, hc, if_neg hpath, hchildren]
                    rfl
                  obtain ⟨next, hnext⟩ := ihids (explore_finished _ _ _ _ _ h hone).1
                  exact ⟨_, .enter hfinished hc hpath hbelow hnext⟩

/-! ## What is entered -/

/-- **What is entered is finished**, and nothing else is, but for what was before. -/
theorem Search.perm {finished' : List UInt32}
    (h : d.Search path ids finished entered (.ok finished')) :
    finished'.Perm (entered ++ finished) := by
  generalize hresult : (Except.ok finished' : Except DesignError (List UInt32)) = result at h
  induction h generalizing finished' with
  | nil =>
      obtain rfl := Except.ok.inj hresult
      exact .refl _
  | pass _ _ ih => exact ih hresult
  | missing | again | fail => cases hresult
  | @enter path id ids finished c below finished'' next result _ _ _ _ _ ihbelow ihnext =>
      calc finished'.Perm (next ++ id :: finished'') := ihnext hresult
        _ |>.Perm (id :: (next ++ (below ++ finished))) :=
          List.perm_middle.trans (((ihbelow rfl).append_left next).cons id)
        _ |>.Perm (id :: (below ++ next) ++ finished) := by
          simpa using (List.perm_append_comm_assoc next below finished)

/-! ## Why a search ends early -/

/-- **A search ends early for two causes only**: a reference that leads nowhere, or a circuit that is
below itself.  All that is searched is below the circuits of the path. -/
theorem Search.cause {cause : DesignError}
    (h : d.Search path ids finished entered (.error cause))
    (habove : ∀ x ∈ path, ∀ id ∈ ids, TransGen d.Instantiates x id) :
    (∃ id, cause = .unknownCircuit id ∧ d.circuit? id = none
      ∧ (id ∈ ids ∨ ∃ parent, d.Instantiates parent id))
    ∨ ∃ id c, cause = .cyclicHierarchy c.name ∧ d.circuit? id = some c
      ∧ TransGen d.Instantiates id id := by
  generalize hresult : (Except.error cause : Except DesignError (List UInt32)) = result at h
  induction h with
  | nil => cases hresult
  | pass _ _ ih =>
      rcases ih (fun x hx id hid => habove x hx id (List.mem_cons_of_mem _ hid)) hresult with
        ⟨id, hcause, hnone, hid⟩ | hcycle
      · exact .inl ⟨id, hcause, hnone, hid.imp_left (List.mem_cons_of_mem _)⟩
      · exact .inr hcycle
  | missing _ hnone =>
      exact .inl ⟨_, Except.error.inj hresult, hnone, .inl List.mem_cons_self⟩
  | again _ hc hpath =>
      exact .inr ⟨_, _, Except.error.inj hresult, hc, habove _ hpath _ List.mem_cons_self⟩
  | @fail path id ids finished c below cause _ hc _ _ ih =>
      -- the circuit is above its instances, and what is above it is above them
      have hchildren : ∀ x ∈ id :: path, ∀ child ∈ c.netlist.children,
          TransGen d.Instantiates x child := by
        intro x hx child hchild
        have hstep : d.Instantiates id child := ⟨c, hc, hchild⟩
        rcases List.mem_cons.1 hx with rfl | hx
        · exact .single hstep
        · exact (habove x hx id List.mem_cons_self).tail hstep
      rcases ih hchildren hresult with ⟨child, hcause, hnone, hchild⟩ | hcycle
      · exact .inl ⟨child, hcause, hnone, .inr (hchild.elim (fun h => ⟨id, c, hc, h⟩) fun h => h)⟩
      · exact .inr hcycle
  | enter _ _ _ _ _ _ ih =>
      rcases ih (fun x hx id hid => habove x hx id (List.mem_cons_of_mem _ hid)) hresult with
        ⟨id, hcause, hnone, hid⟩ | hcycle
      · exact .inl ⟨id, hcause, hnone, hid.imp_left (List.mem_cons_of_mem _)⟩
      · exact .inr hcycle

/-! ## Which designs pass -/

/-- What is below a circuit of such a list is on the list. -/
lemma Finished.mem_of_transGen (h : d.Finished ids) {a b : UInt32} (ha : a ∈ ids)
    (hab : TransGen d.Instantiates a b) : b ∈ ids := by
  have hchild : ∀ {a b}, a ∈ ids → d.Instantiates a b → b ∈ ids := by
    clear ha hab
    induction h with
    | nil => simp
    | @cons id c ids hc _ hchildren _ ih =>
        rintro a b ha ⟨c', hc', hb⟩
        rcases List.mem_cons.1 ha with rfl | ha
        · obtain rfl := Option.some.inj (hc.symm.trans hc')
          exact List.mem_cons_of_mem _ (hchildren b hb)
        · exact List.mem_cons_of_mem _ (ih ha ⟨c', hc', hb⟩)
  induction hab with
  | single hstep => exact hchild ha hstep
  | tail _ hstep ih => exact hchild ih hstep

/-- No circuit of such a list is below itself. -/
lemma Finished.not_transGen (h : d.Finished ids) :
    ∀ id ∈ ids, ¬ TransGen d.Instantiates id id := by
  induction h with
  | nil => simp
  | @cons id c ids hc hid hchildren hids ih =>
      intro x hx hcycle
      rcases List.mem_cons.1 hx with rfl | hx
      · -- all that is below the circuit came before it
        obtain ⟨child, ⟨c', hc', hchild⟩, hback⟩ := TransGen.head'_iff.1 hcycle
        obtain rfl := Option.some.inj (hc.symm.trans hc')
        have hmem := hchildren child hchild
        rcases reflTransGen_iff_eq_or_transGen.1 hback with rfl | hback
        · exact hid hmem
        · exact hid (hids.mem_of_transGen hmem hback)
      · exact ih x hx hcycle

lemma isSome_of_mem_ids {id : UInt32} (h : id ∈ d.ids) : (d.circuit? id).isSome := by
  obtain ⟨i, hi, rfl⟩ := List.mem_map.1 h
  have hlt : i % UInt32.size < d.circuits.size :=
    Nat.lt_of_le_of_lt (Nat.mod_le _ _) (List.mem_range.1 hi)
  simpa [circuit?] using hlt

/-- Where all instances are of circuits that exist, the search from every circuit ends early only at
one that is below itself. -/
lemma Search.cycle {cause : DesignError}
    (hrefs : ∀ id child, d.Instantiates id child → (d.circuit? child).isSome)
    (h : d.Search [] d.ids [] entered (.error cause)) :
    ∃ id c, cause = .cyclicHierarchy c.name ∧ d.circuit? id = some c
      ∧ TransGen d.Instantiates id id := by
  rcases h.cause (by simp) with ⟨id, -, hnone, hid⟩ | hcycle
  · have hsome : (d.circuit? id).isSome :=
      hid.elim isSome_of_mem_ids fun ⟨parent, hparent⟩ => hrefs parent id hparent
    simp [hnone] at hsome
  · exact hcycle

/-- The search from every circuit. -/
lemma exists_search_ids (d : Design) : ∃ entered result, d.Search [] d.ids [] entered result
    ∧ d.checkAcyclic = result.map (fun _ => ())
    ∧ ∀ finished, result = .ok finished →
      d.Finished finished ∧ ∀ id, (d.circuit? id).isSome → id ∈ finished := by
  have hstart : Searching d (d.circuits.size + 1) [] [] :=
    ⟨.nil, List.nodup_nil, by simp, by simp, by simp⟩
  obtain ⟨entered, hsearch⟩ := exists_search hstart d.ids
  refine ⟨entered, _, hsearch, ?_, fun finished hfinished => ?_⟩
  · rw [checkAcyclic]
    cases d.ids.foldlM (fun finished id => d.explore (d.circuits.size + 1) [] id finished) [] <;> rfl
  · obtain ⟨hresult, -, hids⟩ := foldlM_explore (fun id => explore_finished _ _ id) _ _ _ hstart
      hfinished
    exact ⟨hresult.inOrder, fun id hid => hids id (mem_ids hid)⟩

/-- **A design passes exactly if its hierarchy is acyclic**, where all instances are of circuits that
exist. -/
theorem checkAcyclic_eq_ok_iff
    (hrefs : ∀ id child, d.Instantiates id child → (d.circuit? child).isSome) :
    d.checkAcyclic = .ok () ↔ d.Acyclic := by
  obtain ⟨entered, result, hsearch, hcheck, hfinished⟩ := exists_search_ids d
  cases result with
  | ok finished =>
      obtain ⟨hinOrder, hall⟩ := hfinished finished rfl
      refine iff_of_true hcheck fun id hcycle => ?_
      obtain ⟨child, ⟨c, hc, -⟩, -⟩ := TransGen.head'_iff.1 hcycle
      exact hinOrder.not_transGen id (hall id (by simp [hc])) hcycle
  | error cause =>
      obtain ⟨id, c, -, -, hcycle⟩ := hsearch.cycle hrefs
      exact iff_of_false (by simp [hcheck, Except.map]) fun hacyclic => hacyclic id hcycle

/-- **The search is sound and complete**, where all instances are of circuits that exist, however
often a circuit is shared.  It has one course, which ends.  If no cause is found, it has entered no
circuit twice; that is so exactly if no circuit is below itself.  And else a circuit is named that is
below itself. -/
theorem checkAcyclic_search
    (hrefs : ∀ id child, d.Instantiates id child → (d.circuit? child).isSome) :
    ∃ entered result, d.Search [] d.ids [] entered result
      ∧ (∀ entered' result', d.Search [] d.ids [] entered' result' →
        entered = entered' ∧ result = result')
      ∧ d.checkAcyclic = result.map (fun _ => ())
      ∧ (d.checkAcyclic = .ok () → entered.Nodup)
      ∧ (d.checkAcyclic = .ok () ↔ d.Acyclic)
      ∧ ∀ cause, d.checkAcyclic = .error cause → ∃ id c, cause = .cyclicHierarchy c.name
        ∧ d.circuit? id = some c ∧ TransGen d.Instantiates id id := by
  obtain ⟨entered, result, hsearch, hcheck, hfinished⟩ := exists_search_ids d
  refine ⟨entered, result, hsearch, fun _ _ => hsearch.unique, hcheck, fun hok => ?_,
    checkAcyclic_eq_ok_iff hrefs, fun cause herror => ?_⟩
  · cases result with
    | ok finished =>
        have hnodup := (hfinished finished rfl).1.nodup
        rw [hsearch.perm.nodup_iff, List.append_nil] at hnodup
        exact hnodup
    | error cause => cases hcheck.symm.trans hok
  · cases result with
    | ok finished => cases hcheck.symm.trans herror
    | error cause' =>
        obtain rfl := Except.error.inj (hcheck.symm.trans herror)
        exact hsearch.cycle hrefs

lemma refs_of_all (h : (d.circuits.toList.all fun c =>
    c.netlist.children.all fun child => (d.circuit? child).isSome) = true) (id child : UInt32)
    (hstep : d.Instantiates id child) : (d.circuit? child).isSome := by
  obtain ⟨c, hc, hchild⟩ := hstep
  exact List.all_eq_true.1 (List.all_eq_true.1 h c (Array.mem_toList_iff.2
    (Array.mem_of_getElem? hc))) child hchild

/-- A circuit that is shared by two others, one of which is in the other. -/
def shared : Design where
  circuits := #[
    { name := "leaf" },
    { name := "middle", netlist := {
        instances := [{ kind := .instance 0 false }, { kind := .instance 0 true }] } },
    { name := "main", netlist := {
        instances := [{ kind := .instance 1 false }, { kind := .instance 0 false },
          { kind := .instance 1 true }] } }]
  top := 2

/-- Two circuits in each other, and one that has them without being in them. -/
def ring : Design where
  circuits := #[
    { name := "main", netlist := { instances := [{ kind := .instance 1 false }] } },
    { name := "a", netlist := { instances := [{ kind := .instance 2 false }] } },
    { name := "b", netlist := { instances := [{ kind := .instance 1 false }] } }]

/-- The shared circuit is entered once, and the circuit that is named is in the ring. -/
theorem checkAcyclic_search_shared_ring :
    (∀ id child, shared.Instantiates id child → (shared.circuit? child).isSome)
    ∧ (∀ id child, ring.Instantiates id child → (ring.circuit? child).isSome)
    ∧ shared.checkAcyclic = .ok ()
    ∧ (∃ entered result, shared.Search [] shared.ids [] entered result ∧ entered.Nodup)
    ∧ ring.checkAcyclic = .error (.cyclicHierarchy "a")
    ∧ ∃ id c, ring.circuit? id = some c ∧ c.name = "a" ∧ TransGen ring.Instantiates id id := by
  have hshared := refs_of_all (d := shared) (by decide)
  have hring := refs_of_all (d := ring) (by decide)
  have hok : shared.checkAcyclic = .ok () := by decide
  have herror : ring.checkAcyclic = .error (.cyclicHierarchy "a") := by decide
  obtain ⟨entered, result, hsearch, -, -, hnodup, -⟩ := checkAcyclic_search hshared
  obtain ⟨-, -, -, -, -, -, -, hcycle⟩ := checkAcyclic_search hring
  obtain ⟨id, c, hname, hc, hback⟩ := hcycle _ herror
  exact ⟨hshared, hring, hok, ⟨entered, result, hsearch, hnodup hok⟩, herror, id, c, hc,
    (DesignError.cyclicHierarchy.inj hname).symm, hback⟩

end Netscribe.Design
