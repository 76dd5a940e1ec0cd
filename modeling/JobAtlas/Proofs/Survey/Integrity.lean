import JobAtlas.Proofs.Corpus.Consistency
import JobAtlas.Proofs.Graph.Dependency
import JobAtlas.Proofs.Survey.Routing
import JobAtlas.Proofs.Transaction.Spans

/-!
# Names within a survey

The parts of a survey are found apart from each other and point to components by
their names. `closed_ofJob` says that no name leads out of the survey: whatever
the types of the components are and however their names repeat, each name has a
vertex in the graph and one place in its order.

* `Transaction.exists_of_mem_outlines`: the components that a group is made of;
* `exists_of_mem_references`: each name is that of a component of the job;
* `count_order_ofJob`: the order of the graph has the name of a component once.
-/

namespace JobAtlas

/-! ## Components of a group -/

namespace Transaction

variable {cs rest inside : List Component} {connection : Component} {o : Outline}

/-- What ends a transaction tends its connection. -/
theorem tendsConnection_of_endingOf? {c : Component} {e : Ending}
    (h : (DatabaseRole.of? c.kind).bind endingOf? = some e) : c.tendsConnection = true := by
  obtain ⟨role, hr, he⟩ := Option.bind_eq_some_iff.1 h
  rw [Component.tendsConnection, hr]
  cases role <;> cases he <;> rfl

/-- What is in the group that a connection begins. -/
theorem parts_of_outlineBehind (h : outlineBehind connection inside rest = some o) :
    o.connection = connection.name ∧
    o.steps = (inside ++ (rest.takeWhile (!isBoundary ·)).filter worksOnRows).map .ofComponent ∧
    ∀ name, o.terminal = some name → ∃ c ∈ rest, c.tendsConnection ∧ c.name = name := by
  simp only [outlineBehind] at h
  split at h
  · cases h
    refine ⟨rfl, rfl, fun name hn => ?_⟩
    cases hn
  · next c hc =>
    obtain ⟨e, he, rfl⟩ := Option.map_eq_some_iff.1 h
    refine ⟨rfl, rfl, fun name hn => ?_⟩
    cases hn
    exact ⟨c, List.mem_of_find?_eq_some hc, tendsConnection_of_endingOf? he, rfl⟩

/-- A group is made of components of the row that it is found in: two that tend
connections at its ends, and others that work on rows between them. -/
theorem exists_of_mem_outlines (h : o ∈ outlines cs) :
    (∃ c ∈ cs, c.tendsConnection ∧ c.name = o.connection) ∧
    (∀ s ∈ o.steps, ∃ c ∈ cs, worksOnRows c ∧ .ofComponent c = s) ∧
    ∀ name, o.terminal = some name → ∃ c ∈ cs, c.tendsConnection ∧ c.name = name := by
  obtain ⟨t, ht, ho⟩ := List.mem_filterMap.1 h
  have hsub : t ⊆ cs := ((List.mem_tails _ _).1 ht).subset
  cases t with
  | nil => cases ho
  | cons c rest =>
    obtain ⟨hc, ho⟩ := Option.ite_none_right_eq_some.1 ho
    have hrest : rest ⊆ cs := fun x hx => hsub (List.mem_cons_of_mem _ hx)
    obtain ⟨hconnection, hsteps, hterminal⟩ := parts_of_outlineBehind ho
    refine ⟨⟨c, hsub List.mem_cons_self, ?_, hconnection.symm⟩, fun s hs => ?_, fun name hn => ?_⟩
    · rw [Component.tendsConnection, hc]
      rfl
    · rw [hsteps, List.nil_append] at hs
      obtain ⟨x, hx, rfl⟩ := List.mem_map.1 hs
      obtain ⟨hx, hw⟩ := List.mem_filter.1 hx
      exact ⟨x, hrest ((List.takeWhile_sublist _).subset hx), hw, rfl⟩
    · obtain ⟨x, hx, hx'⟩ := hterminal name hn
      exact ⟨x, hrest hx, hx'⟩

/-- The names by which a group points to components. -/
def Group.references (g : Group) : List String :=
  g.connection :: g.terminal.toList ++ g.steps.map (·.name)

end Transaction

namespace Survey

/-! ## References -/

/-- The transactions of a survey. -/
def groups (s : Survey) : List Transaction.Group := (s.transactions.map (·.groups)).getD []

/-- The names by which a survey points to components, apart from its graph. The
source of a trigger is not among them: it is the end of a link, as in the graph,
and no component need bear that name. -/
def references (s : Survey) : List String :=
  s.statements.map (·.component) ++ s.expressions.map (·.component) ++
    s.alerts.map (·.component) ++ s.structures.keys ++ s.qualityRules.keys ++
    s.connections.keys ++ s.groups.flatMap (·.references)

/-- A survey of a job with no name that leads out of it. -/
structure Closed (s : Survey) (job : String) : Prop where
  vertices : ∀ name ∈ s.references, name ∈ s.graph.components.keys
  order : ∀ name ∈ s.references, s.graph.order.count name = 1
  connections : ∀ g ∈ s.groups, g.connection ∈ s.connections.keys ∧
    ∀ name, g.terminal = some name → name ∈ s.connections.keys
  statements : ∀ a ∈ s.statements, a.job = job
  expressions : ∀ e ∈ s.expressions, e.job = job

variable {j : Job} {name : String}

theorem groups_ofJob :
    (ofJob j).groups = (Transaction.spans j.components).map Transaction.Group.ofSpan := by
  show ((Transaction.Summary.ofJob? j).map (·.groups)).getD [] = _
  unfold Transaction.Summary.ofJob?
  cases (Transaction.spans j.components).map Transaction.Group.ofSpan <;> rfl

theorem outline_mem_outlines {g : Transaction.Group} (h : g ∈ (ofJob j).groups) :
    g.outline ∈ Transaction.outlines j.components := by
  rw [groups_ofJob] at h
  obtain ⟨s, hs, rfl⟩ := List.mem_map.1 h
  rw [← Transaction.outline_groups]
  exact List.mem_map_of_mem hs

/-! ### Components behind the references -/

theorem exists_of_mem_statements {a : Sql.Statement} (h : a ∈ (ofJob j).statements) :
    ∃ c ∈ j.components, c.name = a.component := by
  change a ∈ statementsOf j at h
  rw [statementsOf_eq] at h
  obtain ⟨c, hc, ha⟩ := List.mem_flatMap.1 h
  obtain ⟨p, -, rfl⟩ := List.mem_map.1 ha
  exact ⟨c, (List.mem_filter.1 hc).1, rfl⟩

theorem mem_components_of_mem_mappings {c : Component} (h : c ∈ mappings j) : c ∈ j.components :=
  (List.mem_filter.1 (mappings_eq ▸ h)).1

theorem exists_of_mem_expressions {e : Mapping.Expression} (h : e ∈ (ofJob j).expressions) :
    ∃ c ∈ j.components, c.name = e.component := by
  obtain ⟨c, hc, he⟩ := List.mem_flatMap.1 h
  exact ⟨c, mem_components_of_mem_mappings hc,
    (Mapping.Expression.labels_of_mem_ofComponent he).2.symm⟩

theorem exists_of_mem_alerts {a : Alert} (h : a ∈ (ofJob j).alerts) :
    ∃ c ∈ j.components, c.name = a.component := by
  obtain ⟨c, hc, ha⟩ := List.mem_filterMap.1 h
  exact ⟨c, (List.mem_filter.1 hc).1, (component_of_ofComponent? ha).symm⟩

theorem exists_of_mem_structures (h : name ∈ (ofJob j).structures.keys) :
    ∃ c ∈ j.components, c.name = name := by
  obtain ⟨p, hp, rfl⟩ := List.mem_map.1 (SortedMap.mem_keys_ofList.1 h)
  obtain ⟨c, hc, rfl⟩ := List.mem_map.1 hp
  exact ⟨c, mem_components_of_mem_mappings hc, rfl⟩

theorem exists_of_mem_qualityRules (h : name ∈ (ofJob j).qualityRules.keys) :
    ∃ c ∈ j.components, c.name = name := by
  obtain ⟨p, hp, rfl⟩ := List.mem_map.1 (SortedMap.mem_keys_ofList.1 h)
  obtain ⟨⟨c, what⟩, hc, hp⟩ := List.mem_filterMap.1 hp
  rw [processed_eq] at hc
  obtain ⟨x, hx, e⟩ := List.mem_map.1 (List.mem_filter.1 hc).1
  cases e
  split at hp
  · cases hp
  · cases hp
    exact ⟨c, (List.mem_filter.1 hx).1, rfl⟩

theorem exists_of_mem_group {g : Transaction.Group} (h : g ∈ (ofJob j).groups)
    (hn : name ∈ g.references) : ∃ c ∈ j.components, c.name = name := by
  obtain ⟨⟨c, hc, -, hname⟩, hsteps, hterminal⟩ :=
    Transaction.exists_of_mem_outlines (outline_mem_outlines h)
  rcases List.mem_append.1 hn with hn | hn
  · rcases List.mem_cons.1 hn with rfl | hn
    · exact ⟨c, hc, hname⟩
    · obtain ⟨x, hx, -, hx'⟩ := hterminal name (Option.mem_toList.1 hn)
      exact ⟨x, hx, hx'⟩
  · obtain ⟨s, hs, rfl⟩ := List.mem_map.1 hn
    obtain ⟨x, hx, -, rfl⟩ := hsteps s hs
    exact ⟨x, hx, rfl⟩

/-- A survey of a job points to components of the job only. -/
theorem exists_of_mem_references (h : name ∈ (ofJob j).references) :
    ∃ c ∈ j.components, c.name = name := by
  simp only [references, List.mem_append, List.mem_map, List.mem_flatMap] at h
  obtain (((((⟨a, ha, rfl⟩ | ⟨e, he, rfl⟩) | ⟨a, ha, rfl⟩) | h) | h) | h) | ⟨g, hg, h⟩ := h
  · exact exists_of_mem_statements ha
  · exact exists_of_mem_expressions he
  · exact exists_of_mem_alerts ha
  · exact exists_of_mem_structures h
  · exact exists_of_mem_qualityRules h
  · obtain ⟨c, hc, -, hn⟩ := mem_keys_connections_ofJob.1 h
    exact ⟨c, hc, hn⟩
  · exact exists_of_mem_group hg h

/-! ### Places in the graph -/

theorem mem_keys_graph_ofJob {c : Component} (hc : c ∈ j.components) :
    c.name ∈ (ofJob j).graph.components.keys := by
  show _ ∈ (SortedMap.ofList _).keys
  rw [SortedMap.mem_keys_ofList, List.map_map]
  exact List.mem_map_of_mem hc

/-- Components of one name share a place in the order. -/
theorem count_order_ofJob {c : Component} (hc : c ∈ j.components) :
    (ofJob j).graph.order.count c.name = 1 := by
  have hn : (Graph.registered j).Nodup := nodup_distinct _
  have hp : (ofJob j).graph.order.Perm (Graph.registered j) := Graph.executionOrder_perm hn
  rw [hp.count_eq]
  exact List.count_eq_one_of_mem hn (mem_distinct.2 (List.mem_map_of_mem hc))

/-- The survey of a job is closed under its references: each component that is
named has a vertex in the graph and one place in its order, what begins and ends a
transaction is listed among the connections, and statements and expressions bear
the name of the job. -/
theorem closed_ofJob (j : Job) : (ofJob j).Closed j.name where
  vertices name h := by
    obtain ⟨c, hc, rfl⟩ := exists_of_mem_references h
    exact mem_keys_graph_ofJob hc
  order name h := by
    obtain ⟨c, hc, rfl⟩ := exists_of_mem_references h
    exact count_order_ofJob hc
  connections g hg := by
    obtain ⟨hconnection, -, hterminal⟩ :=
      Transaction.exists_of_mem_outlines (outline_mem_outlines hg)
    exact ⟨mem_keys_connections_ofJob.2 hconnection,
      fun name hn => mem_keys_connections_ofJob.2 (hterminal name hn)⟩
  statements := (labelled_ofJob j).statements
  expressions := (labelled_ofJob j).expressions

/-- Every kind of reference: statements, expressions, alerts, mappings, rules,
connections, and the group with its ends and steps. -/
example :
    let s := ofJob everyPart
    s.references = ["read", "write"] ++ ["sum"] ++ ["stop"] ++ ["sum"] ++ ["check"] ++
      ["end", "open"] ++ ["open", "end", "read", "write"] ∧
    s.graph.components.keys =
      ["check", "end", "open", "read", "report", "script", "stop", "sum", "write"] := by
  decide +kernel

end Survey

end JobAtlas
