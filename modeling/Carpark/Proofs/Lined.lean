import Carpark.Proofs.Service

/-!
Who waits for what. Each command that is under way to the log, and each answer that is under way
back, belongs to one member of the crew, who waits for it.
-/

namespace Carpark

/-- What a job tells the log to do. -/
def Job.command (t : Tables) : Job → LogCommand
  | .commit txn => .append txn.writes
  | .compact => .replace t.snapshot
  | .count => .count

def Job.Accepts : Job → LogAnswer → Prop
  | .commit _, told => told = .done
  | .compact, _ | .count, _ => True

theorem Job.accepts_done : ∀ job : Job, job.Accepts .done
  | .commit _ => rfl
  | .compact | .count => trivial

theorem Job.accepts_of_command {t : Tables} {command : LogCommand} (other : command.commit? = none)
    (told : LogAnswer) (job : Job) (same : command = job.command t) : job.Accepts told := by
  subst same
  cases job with
  | commit txn => cases other
  | compact | count => trivial

def Member.Awaits (m : Member) (i : TaskId) : Prop := m.task = i ∧ ∃ taken, m.stage = .logging taken

theorem SharedStore.mem_of_answer? {s : SharedStore} {i : TaskId} {told : LogAnswer}
    (h : s.answer? i = some told) : (i, told) ∈ s.answers := by
  obtain ⟨before, after, split, -⟩ := List.lookup_eq_some_iff.1 h
  exact split ▸ List.mem_append_right before (.head after)

/-- Each command and each answer is for somebody who waits for it, and nobody waits for two. -/
structure Lined (t : Tables) (crew : List Member) (commands : List (TaskId × LogCommand))
    (replies : List (TaskId × LogAnswer)) : Prop where
  once : (commands.map Prod.fst ++ replies.map Prod.fst).Nodup
  command : ∀ p ∈ commands, ∃ m ∈ crew, m.Awaits p.1 ∧ p.2 = m.work.job.command t
  reply : ∀ p ∈ replies, ∃ m ∈ crew, m.Awaits p.1 ∧ m.work.job.Accepts p.2

namespace Lined

variable {t t' : Tables} {crew crew' : List Member}
  {commands commands' : List (TaskId × LogCommand)} {replies replies' : List (TaskId × LogAnswer)}
  {i : TaskId} {work : Work} {m : Member}

theorem perm (h : Lined t crew commands replies) (hcrew : crew.Perm crew')
    (hcommands : commands.Perm commands') (hreplies : replies.Perm replies') :
    Lined t crew' commands' replies' where
  once := ((hcommands.map _).append (hreplies.map _)).nodup_iff.1 h.once
  command := fun p hp => by
    obtain ⟨m, hm, waits⟩ := h.command p (hcommands.mem_iff.2 hp)
    exact ⟨m, hcrew.mem_iff.1 hm, waits⟩
  reply := fun p hp => by
    obtain ⟨m, hm, waits⟩ := h.reply p (hreplies.mem_iff.2 hp)
    exact ⟨m, hcrew.mem_iff.1 hm, waits⟩

theorem tell {command : LogCommand} {told : LogAnswer}
    (h : Lined t crew ((i, command) :: commands) replies)
    (accepts : ∀ job : Job, command = job.command t → job.Accepts told) :
    Lined t crew commands ((i, told) :: replies) where
  once := by
    rw [List.map_cons]
    exact List.perm_middle.nodup_iff.2 h.once
  command := fun p hp => h.command p (.tail _ hp)
  reply := by
    obtain ⟨m, hm, waits, same⟩ := h.command _ (.head _)
    exact List.forall_mem_cons.2 ⟨⟨m, hm, waits, accepts _ same⟩, h.reply⟩

theorem start (h : Lined t crew commands replies) (m : Member) :
    Lined t (m :: crew) commands replies where
  once := h.once
  command := fun p hp => by
    obtain ⟨m, hm, waits⟩ := h.command p hp
    exact ⟨m, .tail _ hm, waits⟩
  reply := fun p hp => by
    obtain ⟨m, hm, waits⟩ := h.reply p hp
    exact ⟨m, .tail _ hm, waits⟩

theorem drop (h : Lined t (m :: crew) commands replies)
    (nothing : ∀ i ∈ commands.map Prod.fst ++ replies.map Prod.fst, ¬ m.Awaits i) :
    Lined t crew commands replies where
  once := h.once
  command := fun p hp => by
    obtain ⟨n, hn, waits, same⟩ := h.command p hp
    rcases List.mem_cons.1 hn with rfl | hn
    · exact absurd waits (nothing _ (List.mem_append_left _ (List.mem_map_of_mem hp)))
    · exact ⟨n, hn, waits, same⟩
  reply := fun p hp => by
    obtain ⟨n, hn, waits, same⟩ := h.reply p hp
    rcases List.mem_cons.1 hn with rfl | hn
    · exact absurd waits (nothing _ (List.mem_append_right _ (List.mem_map_of_mem hp)))
    · exact ⟨n, hn, waits, same⟩

theorem goOn (h : Lined t (m :: crew) commands replies) (m' : Member)
    (idle : ∀ taken, m.stage ≠ .logging taken) : Lined t (m' :: crew) commands replies :=
  (h.drop fun _ _ ⟨_, taken, stage⟩ => idle taken stage).start m'

theorem send (h : Lined t (m :: crew) commands replies) (idle : ∀ taken, m.stage ≠ .logging taken)
    (fresh : ∀ n ∈ crew, n.task ≠ i) (taken : List Nat) :
    Lined t (⟨i, work, .logging taken⟩ :: crew) (commands ++ [(i, work.job.command t)])
      replies := by
  have rest := h.drop fun _ _ ⟨_, taken, stage⟩ => idle taken stage
  have absent : i ∉ commands.map Prod.fst ++ replies.map Prod.fst := by
    intro hi
    rcases List.mem_append.1 hi with hi | hi
    · obtain ⟨p, hp, rfl⟩ := List.mem_map.1 hi
      obtain ⟨n, hn, ⟨task, -⟩, -⟩ := rest.command p hp
      exact fresh n hn task
    · obtain ⟨p, hp, rfl⟩ := List.mem_map.1 hi
      obtain ⟨n, hn, ⟨task, -⟩, -⟩ := rest.reply p hp
      exact fresh n hn task
  have sent : Lined t (⟨i, work, .logging taken⟩ :: crew) ((i, work.job.command t) :: commands)
      replies := {
    once := List.nodup_cons.2 ⟨absent, h.once⟩
    command := List.forall_mem_cons.2
      ⟨⟨_, .head _, ⟨rfl, taken, rfl⟩, rfl⟩, (rest.start _).command⟩
    reply := (rest.start _).reply }
  exact sent.perm (.refl _) (List.perm_append_singleton _ _).symm (.refl _)

theorem pickUp {told : LogAnswer} (h : Lined t (m :: crew) commands replies) (task : m.task = i)
    (hi : (i, told) ∈ replies) (m' : Member) :
    Lined t (m' :: crew) commands (replies.filter (·.1 ≠ i)) := by
  have sublist : (replies.filter (·.1 ≠ i)).Sublist replies := List.filter_sublist
  obtain ⟨once, -, apart⟩ := List.nodup_append.1 h.once
  have fewer : Lined t (m :: crew) commands (replies.filter (·.1 ≠ i)) := {
    once := h.once.sublist ((sublist.map _).append_left _)
    command := h.command
    reply := fun p hp => h.reply p (sublist.subset hp) }
  refine (fewer.drop fun j hj => ?_).start m'
  rintro ⟨rfl, -⟩
  rcases List.mem_append.1 hj with hj | hj
  · exact apart _ hj _ (List.mem_map_of_mem hi) task
  · obtain ⟨p, hp, same⟩ := List.mem_map.1 hj
    simpa [same, task] using (List.mem_filter.1 hp).2

theorem accepts {stage : Stage} {told : LogAnswer}
    (h : Lined t (⟨i, work, stage⟩ :: crew) commands replies) (fresh : ∀ n ∈ crew, n.task ≠ i)
    (hi : (i, told) ∈ replies) : work.job.Accepts told := by
  obtain ⟨n, hn, ⟨task, -⟩, accepts⟩ := h.reply _ hi
  rcases List.mem_cons.1 hn with rfl | hn
  · exact accepts
  · exact absurd task (fresh n hn)

theorem retable (h : Lined t crew commands replies)
    (none : ∀ m ∈ crew, ∀ taken, m.stage = .logging taken → m.work.job ≠ .compact) :
    Lined t' crew commands replies where
  once := h.once
  command := fun p hp => by
    obtain ⟨m, hm, ⟨task, taken, stage⟩, same⟩ := h.command p hp
    refine ⟨m, hm, ⟨task, taken, stage⟩, same.trans ?_⟩
    cases hjob : m.work.job with
    | compact => exact absurd hjob (none m hm taken stage)
    | _ => rfl
  reply := h.reply

theorem move {s s' : SharedStore} {stage stage' : Stage} {desk : List (TaskId × LogCommand)}
    {announced : List (TaskId × LogAnswer)}
    (h : Lined s.store.tables (⟨i, work, stage⟩ :: crew) (desk ++ s.queue)
      (announced ++ s.answers))
    (guarded : s.Guarded ((⟨i, work, stage⟩ :: crew).map Member.worker))
    (step : s.Moves i work.job stage s' stage') :
    Lined s'.store.tables (⟨i, work, stage'⟩ :: crew) (desk ++ s'.queue)
      (announced ++ s'.answers) := by
  have fresh : ∀ n ∈ crew, n.task ≠ i := fun n hn => guarded.other (List.mem_map_of_mem hn)
  have sent {s' : SharedStore} {taken : List Nat}
      (queue : s'.queue = s.queue ++ [(i, work.job.command s.store.tables)])
      (idle : ∀ taken, stage ≠ .logging taken) :
      Lined s.store.tables (⟨i, work, .logging taken⟩ :: crew) (desk ++ s'.queue)
        (announced ++ s.answers) := by
    rw [queue, ← List.append_assoc]
    exact h.send idle fresh taken
  have picked {told : LogAnswer} (answer : s.answer? i = some told) (stage' : Stage) :
      Lined s.store.tables (⟨i, work, stage'⟩ :: crew) (desk ++ s.queue)
        (announced ++ (s.pickUp i).answers) := by
    have mem := SharedStore.mem_of_answer? answer
    have told := h.pickUp rfl (List.mem_append_right announced mem) ⟨i, work, stage'⟩
    have once := (List.nodup_append.1 h.once).2.1
    rw [List.map_append] at once
    have others : ∀ p ∈ announced, decide (p.1 ≠ i) = true := fun p hp => decide_eq_true fun same =>
      (List.nodup_append.1 once).2.2 _ (List.mem_map_of_mem hp) _ (List.mem_map_of_mem mem) same
    rwa [List.filter_append, List.filter_eq_self.2 others] at told
  generalize hjob : work.job = job at step
  cases step with
  | logged answer | lost answer | compacted answer | counted answer => exact picked answer _
  | pass | snapshot | count => exact sent (by rw [hjob]; rfl) nofun
  | write =>
    refine (h.goOn _ nofun).retable fun n hn taken logging compact => ?_
    rcases List.mem_cons.1 hn with rfl | hn
    · cases logging
    · have alone := guarded.alone (List.mem_map_of_mem (.tail _ hn)) compact logging (.head _)
        (by change work.job.isInside _ = true; rw [hjob]; rfl)
      exact fresh n hn (congrArg Worker.task alone).symm
  | _ => exact h.goOn _ nofun

end Lined

end Carpark
