import PrimaryElection.Proofs.Membership

namespace PrimaryElection.Group

open GroupM

variable {ι : Type}

theorem generatedId_injective {m n : Nat} (h : generatedId m = generatedId n) : m = n := by
  have hdigits : Nat.toDigits 10 m = Nat.toDigits 10 n :=
    String.ofList_injective ((String.append_right_inj "member-").mp (Text.ofString_inj.mp h))
  have hread := congrArg (Nat.ofDigitChars 10 · 0) hdigits
  simpa only [Nat.ofDigitChars_ten_toDigits] using hread

structure Unnamed (w w' : World ι) : Prop where
  count : w'.group.nextMember = w.group.nextMember
  joined : joined w'.trace = joined w.trace

theorem Unnamed.trans {w w' w'' : World ι} (h : Unnamed w w') (h' : Unnamed w' w'') : Unnamed w w'' where
  count := h'.count.trans h.count
  joined := h'.joined.trans h.joined

def NamesNone {α : Type} (x : GroupM ι α) : Prop := ∀ w, After x w fun _ w' => Unnamed w w'

section combinators

variable {α β : Type}

theorem namesNone_pure (a : α) : NamesNone (pure a : GroupM ι α) := fun _ => after_pure ⟨rfl, rfl⟩

theorem namesNone_throw (e : Error) : NamesNone (throw e : GroupM ι α) := fun _ => after_throw ⟨rfl, rfl⟩

theorem NamesNone.bind {x : GroupM ι α} {f : α → GroupM ι β} (hx : NamesNone x)
    (hf : ∀ a, NamesNone (f a)) : NamesNone (x >>= f) := by
  intro w
  refine (hx w).bind ?_ fun _ _ h => h
  exact fun a w' h => (hf a w').mono fun _ _ h' => h.trans h'

theorem namesNone_get {f : World ι → GroupM ι α} (hf : ∀ w, NamesNone (f w)) : NamesNone (get >>= f) :=
  fun w => after_get (hf w w)

theorem namesNone_group {f : Group ι → GroupM ι α} (hf : ∀ g, NamesNone (f g)) :
    NamesNone (group >>= f) :=
  fun w => after_group (hf w.group w)

theorem namesNone_update {f : Group ι → Group ι} (hf : ∀ g, (f g).nextMember = g.nextMember) :
    NamesNone (update f : GroupM ι Unit) :=
  fun w => after_of_ok rfl ⟨hf w.group, rfl⟩

theorem namesNone_update_bind {f : Group ι → Group ι} {k : Unit → GroupM ι α}
    (hf : ∀ g, (f g).nextMember = g.nextMember) (hk : NamesNone (k ())) : NamesNone (update f >>= k) :=
  (namesNone_update hf).bind fun _ => hk

theorem namesNone_completed (epoch : Int) (leader : MemberId) :
    NamesNone (log (.completed epoch leader) : GroupM ι Unit) :=
  fun _ => after_of_ok rfl ⟨rfl, (joined_append _ _).trans (List.append_nil _)⟩

theorem namesNone_handler (memberId : MemberId) : NamesNone (handler memberId : GroupM ι (Handler ι)) := by
  refine namesNone_group fun g => ?_
  split
  · exact namesNone_pure _
  · exact namesNone_throw _

end combinators

section operations

variable [DecidableEq ι]

theorem namesNone_onNode {α : Type} (i : ι) (work : (Notice → HookM Unit) → HookM α) :
    NamesNone (onNode i work) := by
  intro w
  have hput : ∀ r, Unnamed w (w.put i r) := by
    intro r
    refine ⟨rfl, (joined_append _ _).trans ?_⟩
    rw [joined_events, List.append_nil]
  exact after_onNode (P := fun _ _ => True) (after_left.mpr trivial) (fun _ r _ => hput r)
    fun _ r _ => hput r

theorem namesNone_revokeAll (members : List (MemberId × Handler ι)) : NamesNone (revokeAll members) := by
  induction members with
  | nil => exact namesNone_pure ()
  | cons e rest ih => exact (namesNone_onNode _ _).bind fun _ => ih

theorem namesNone_gather (members : List (MemberId × Handler ι)) : NamesNone (gather members) := by
  induction members with
  | nil => exact namesNone_pure []
  | cons e rest ih =>
    refine (namesNone_onNode _ _).bind fun submitted => namesNone_group fun g => ?_
    exact ih.bind fun _ => namesNone_pure _

theorem namesNone_assign (m : Handler ι) (epoch : Int) (leader : MemberId) (metadata : Roster Payload) :
    NamesNone (assign m epoch leader metadata) :=
  (namesNone_onNode _ _).bind fun _ => namesNone_pure _

theorem namesNone_deliver (epoch : Int) (assignments : Roster Bytes)
    (members : List (MemberId × Handler ι)) : NamesNone (deliver epoch assignments members) := by
  induction members with
  | nil => exact namesNone_pure ()
  | cons e rest ih =>
    refine namesNone_group fun g => ?_
    split
    · exact (namesNone_onNode _ _).bind fun _ => ih
    · exact namesNone_throw _

theorem namesNone_rebalance (asked : Value) (abort : Bool) :
    NamesNone (rebalance asked abort : GroupM ι Round) := by
  have hkeep : ∀ r, NamesNone (keepRound r : GroupM ι Unit) := fun _ => namesNone_update fun _ => rfl
  refine namesNone_group fun g => ?_
  split
  · exact namesNone_throw _
  refine namesNone_group fun g => (namesNone_revokeAll _).bind fun _ => ?_
  refine namesNone_update_bind (fun _ => rfl) (namesNone_group fun g => ?_)
  refine (namesNone_gather _).bind fun _ => (namesNone_assign _ _ _ _).bind fun _ => ?_
  dsimp only
  split
  · exact namesNone_throw _
  split
  · exact (namesNone_revokeAll _).bind fun _ => (hkeep _).bind fun _ => namesNone_pure _
  · refine (namesNone_deliver _ _ _).bind fun _ => (hkeep _).bind fun _ => ?_
    exact (namesNone_completed _ _).bind fun _ => namesNone_pure _

theorem namesNone_leave (memberId : MemberId) : NamesNone (leave memberId : GroupM ι Unit) := by
  refine (namesNone_handler memberId).bind fun m => namesNone_update_bind (fun _ => rfl) ?_
  refine (namesNone_onNode _ _).bind fun _ => namesNone_group fun g => ?_
  split
  · exact namesNone_update fun _ => rfl
  · exact namesNone_pure _

theorem namesNone_operate {op : Operation ι} (hop : ∀ m memberId, op ≠ .join m memberId) :
    NamesNone (operate op) := by
  cases op with
  | join m memberId => exact (hop m memberId rfl).elim
  | leave memberId => exact (namesNone_leave _).bind fun _ => namesNone_pure _
  | rebalance leader abort => exact (namesNone_rebalance _ _).bind fun _ => namesNone_pure _
  | poll =>
    refine NamesNone.bind (namesNone_get fun w => ?_) fun _ => namesNone_pure _
    split
    · exact (namesNone_rebalance _ _).bind fun _ => namesNone_pure _
    · exact namesNone_pure _
  | overrideMetadata memberId p => exact namesNone_update_bind (fun _ => rfl) (namesNone_pure _)
  | overrideAssignment memberId p => exact namesNone_update_bind (fun _ => rfl) (namesNone_pure _)
  | clearOverrides => exact namesNone_update_bind (fun _ => rfl) (namesNone_pure _)
  | call i c => exact (namesNone_onNode _ _).bind fun _ => namesNone_pure _

end operations

def Operation.Spares : Operation ι → Prop
  | .join _ (some id) => ∀ n, id ≠ generatedId n
  | _ => True

def Ahead (w : World ι) : Prop := ∀ n, w.group.nextMember ≤ n → generatedId n ∉ joined w.trace

theorem Ahead.unnamed {w w' : World ι} (h : Ahead w) (hw : Unnamed w w') : Ahead w' := by
  intro n hn
  rw [hw.count] at hn
  rw [hw.joined]
  exact h n hn

theorem Ahead.later {w w' : World ι} (h : Ahead w) (hcount : w.group.nextMember ≤ w'.group.nextMember)
    (hjoined : joined w'.trace = joined w.trace) : Ahead w' := by
  intro n hn
  rw [hjoined]
  exact h n (Nat.le_trans hcount hn)

theorem le_countAfter (g : Group ι) (memberId : Option MemberId) :
    g.nextMember ≤ countAfter g memberId := by
  cases memberId with
  | none => exact Nat.le_succ _
  | some id => exact Nat.le_refl _

theorem generatedId_ne_idFor {g : Group ι} {m : Handler ι} {memberId : Option MemberId}
    (hspares : (Operation.join m memberId).Spares) {n : Nat} (hn : countAfter g memberId ≤ n) :
    generatedId n ≠ idFor g memberId := by
  cases memberId with
  | none =>
    intro heq
    have hsame := generatedId_injective heq
    simp only [countAfter] at hn
    omega
  | some id => exact fun heq => hspares n heq.symm

theorem after_join_ahead {w : World ι} {m : Handler ι} {memberId : Option MemberId} (h : Ahead w)
    (hspares : (Operation.join m memberId).Spares) : After (join m memberId) w fun _ w' => Ahead w' := by
  rcases admits_or_mismatch w m with ⟨p, hadmits⟩ | ⟨p, hsome, hdiffers⟩
  · have hjoins := join_of_admits hadmits memberId
    cases htaken : w.group.members.contains (idFor w.group memberId) with
    | true =>
      apply after_of_error (hjoins.trans (enter_of_taken htaken))
      exact h.later (le_countAfter _ _) rfl
    | false =>
      apply after_of_ok (hjoins.trans (enter_of_free htaken))
      intro n hn
      rw [joined_append]
      intro hmem
      rcases List.mem_append.mp hmem with hold | hnew
      · exact h n (Nat.le_trans (le_countAfter w.group memberId) hn) hold
      · exact generatedId_ne_idFor hspares hn (List.mem_singleton.mp hnew)
  · exact after_of_error (join_of_mismatch hsome hdiffers memberId) h

theorem Course.ahead [DecidableEq ι] {allowed : Operation ι → Prop} {groupId : Value}
    {nodes : ι → Session} {w : World ι} (hspares : ∀ op, allowed op → op.Spares)
    (h : Course allowed ⟨{ groupId := groupId }, nodes, []⟩ w) : Ahead w := by
  induction h with
  | begin =>
    intro n _ hmem
    cases hmem
  | @operate w op _ hop ih =>
    apply after_left.mp
    by_cases hjoin : ∃ m memberId, op = .join m memberId
    · obtain ⟨m, memberId, rfl⟩ := hjoin
      exact (after_join_ahead ih (hspares _ hop)).bind (fun _ _ h' => after_pure h') fun _ _ h' => h'
    · apply (namesNone_operate (fun m memberId e => hjoin ⟨m, memberId, e⟩) w).mono
      exact fun _ _ hw => ih.unnamed hw

def Welcome (w : World ι) (m : Handler ι) : Prop :=
  w.group.members.keys = [] ∨
    ∃ p, w.group.subProtocol = some p ∧ (w.nodes m.node).node.config.subProtocol.same p = true

instance (w : World ι) (m : Handler ι) : Decidable (Welcome w m) :=
  decidable_of_iff (w.group.members.keys = [] ∨
      w.group.subProtocol.any (fun p => (w.nodes m.node).node.config.subProtocol.same p) = true) (by
    rw [Option.any_eq_true]
    rfl)

theorem Founded.welcome_iff {w : World ι} (h : Founded w) (m : Handler ι) :
    Welcome w m ↔ ∃ p, Admits w m p := by
  unfold Welcome Admits
  rw [← h.protocol]
  constructor
  · rintro (hnone | ⟨p, hsome⟩)
    · exact ⟨_, .inl ⟨hnone, rfl⟩⟩
    · exact ⟨p, .inr hsome⟩
  · rintro ⟨p, ⟨hnone, _⟩ | hsome⟩
    · exact .inl hnone
    · exact .inr ⟨p, hsome⟩

theorem Founded.mem_joined {w : World ι} (h : Founded w) {id : MemberId}
    (hmember : w.group.members.contains id = true) : id ∈ joined w.trace := by
  rw [Roster.contains_iff, h.order] at hmember
  exact List.mem_dedup.mp (List.mem_filter.mp hmember).1

theorem join_of_taken {w : World ι} (h : Founded w) {m : Handler ι} (hwelcome : Welcome w m)
    (memberId : Option MemberId) (htaken : w.group.members.contains (idFor w.group memberId) = true) :
    join m memberId w = .error (.alreadyJoined (idFor w.group memberId))
      { w with group := { w.group with nextMember := countAfter w.group memberId } } := by
  obtain ⟨p, hadmits⟩ := (h.welcome_iff m).mp hwelcome
  -- a group without a sub-protocol has no members, so no id is taken in it
  have hsome : w.group.subProtocol = some p := by
    rcases hadmits with ⟨hnone, _⟩ | ⟨hsome, _⟩
    · rw [Roster.contains_iff, h.protocol.mp hnone] at htaken
      cases htaken
    · exact hsome
  rw [join_of_admits hadmits, ← hsome]
  exact enter_of_taken htaken

theorem join_of_free {w : World ι} (h : Founded w) {m : Handler ι} (hwelcome : Welcome w m)
    (memberId : Option MemberId) (hfree : w.group.members.contains (idFor w.group memberId) = false) :
    ∃ w', join m memberId w = .ok (idFor w.group memberId) w' := by
  obtain ⟨p, hadmits⟩ := (h.welcome_iff m).mp hwelcome
  exact ⟨_, (join_of_admits hadmits memberId).trans (enter_of_free hfree)⟩

theorem join_of_stranger {w : World ι} (h : Founded w) {m : Handler ι} (hwelcome : ¬ Welcome w m)
    (memberId : Option MemberId) : ∃ e, join m memberId w = .error e w := by
  rcases admits_or_mismatch w m with hadmits | ⟨p, hsome, hdiffers⟩
  · exact (hwelcome ((h.welcome_iff m).mpr hadmits)).elim
  · exact ⟨_, join_of_mismatch hsome hdiffers memberId⟩

theorem eq_of_join_error {w w' : World ι} (h : Founded w) {m : Handler ι} {memberId : Option MemberId}
    {e : Error} (hjoin : join m memberId w = .error e w')
    (hfree : memberId = none → w.group.members.contains (generatedId w.group.nextMember) = false) :
    w' = w := by
  by_cases hwelcome : Welcome w m
  · cases htaken : w.group.members.contains (idFor w.group memberId) with
    | true =>
      rw [join_of_taken h hwelcome memberId htaken] at hjoin
      cases memberId with
      | none =>
        -- the count would have moved on, but the id that is made up next is free
        have hmade := hfree rfl
        rw [show idFor w.group none = generatedId w.group.nextMember from rfl, hmade] at htaken
        cases htaken
      | some id =>
        cases hjoin
        rfl
    | false =>
      obtain ⟨_, hok⟩ := join_of_free h hwelcome memberId htaken
      rw [hok] at hjoin
      cases hjoin
  · obtain ⟨_, herror⟩ := join_of_stranger h hwelcome memberId
    rw [herror] at hjoin
    cases hjoin
    rfl

section courses

variable [DecidableEq ι] {w : World ι}

/--
Whatever has happened to a group, a join that asks for an id leaves the world as it was where it fails, and so
does any join of a node that speaks another sub-protocol. A node that is welcome without an id joins under the
next one in the count, unless a member has just that one: then it is refused an id that it did not ask for,
and the count moves on. This cannot come about where nobody asks for ids that the group might make up: there
every id that is made up is a new one, and no join that fails changes anything.
-/
theorem Course.ids_made_up {allowed : Operation ι → Prop} {groupId : Value} {nodes : ι → Session}
    (hnew : ∀ i, ∃ config script, nodes i = .start config script)
    (h : Course allowed ⟨{ groupId := groupId }, nodes, []⟩ w) :
    (∀ m id e w', join m (some id) w = .error e w' → w' = w) ∧
    (∀ m memberId, ¬ Welcome w m → ∃ e, join m memberId w = .error e w) ∧
    (∀ m, Welcome w m →
      (generatedId w.group.nextMember ∉ w.group.members.keys →
        ∃ w', join m none w = .ok (generatedId w.group.nextMember) w') ∧
      (generatedId w.group.nextMember ∈ w.group.members.keys →
        join m none w = .error (.alreadyJoined (generatedId w.group.nextMember))
          { w with group := { w.group with nextMember := w.group.nextMember + 1 } })) ∧
    ((∀ op, allowed op → op.Spares) →
      (∀ m, Welcome w m → ∃ id w', join m none w = .ok id w' ∧ id ∉ w.group.members.keys ∧
        id ∉ joined w.trace) ∧
      ∀ m memberId e w', join m memberId w = .error e w' → w' = w) := by
  have hfounded := h.founded hnew
  refine ⟨?_, ?_, ?_, fun hspares => ?_⟩
  · intro m id e w' hjoin
    exact eq_of_join_error hfounded hjoin nofun
  · exact fun m memberId hwelcome => join_of_stranger hfounded hwelcome memberId
  · intro m hwelcome
    rw [← Roster.contains_iff, Bool.not_eq_true]
    exact ⟨join_of_free hfounded hwelcome none, join_of_taken hfounded hwelcome none⟩
  · have hnever : generatedId w.group.nextMember ∉ joined w.trace :=
      h.ahead hspares w.group.nextMember (Nat.le_refl _)
    have hfree : w.group.members.contains (generatedId w.group.nextMember) = false :=
      Bool.eq_false_iff.mpr fun hmember => hnever (hfounded.mem_joined hmember)
    constructor
    · intro m hwelcome
      obtain ⟨w', hjoin⟩ := join_of_free hfounded hwelcome none hfree
      refine ⟨_, w', hjoin, ?_, hnever⟩
      rw [← Roster.contains_iff]
      exact Bool.eq_false_iff.mp hfree
    · intro m memberId e w' hjoin
      exact eq_of_join_error hfounded hjoin fun _ => hfree

end courses

theorem ne_generatedId_of_head {id : MemberId} (h : id.points.head? ≠ some (.char 'm')) (n : Nat) :
    id ≠ generatedId n := by
  rintro rfl
  exact h (by simp [generatedId, Text.ofString])

def rejoining (i j : Fin 3) : World (Fin 3) :=
  [.join ⟨i, []⟩ none, .join ⟨j, []⟩ (some "b"), .rebalance .null false, .leave "member-1"].foldl
    (fun w op => left (operate op) w) ⟨{ groupId := .text "g" }, bilingual, []⟩

theorem Course.ids_made_up_rejoining :
    Course Operation.Spares ⟨{ groupId := .text "g" }, bilingual, []⟩ (rejoining 0 1) ∧
      joined (rejoining 0 1).trace = ["member-1", "b"] ∧
      (∃ w', join ⟨0, []⟩ none (rejoining 0 1) = .ok "member-2" w') ∧
      (∃ id w', join ⟨0, []⟩ none (rejoining 0 1) = .ok id w' ∧
        id ∉ (rejoining 0 1).group.members.keys ∧ id ∉ joined (rejoining 0 1).trace) ∧
      ∃ e, join ⟨2, []⟩ none (rejoining 0 1) = .error e (rejoining 0 1) := by
  have hbegin : Course Operation.Spares ⟨{ groupId := .text "g" }, bilingual, []⟩ _ := .begin
  have hb : ∀ n, ("b" : MemberId) ≠ generatedId n := ne_generatedId_of_head (by decide)
  have hcourse : Course Operation.Spares ⟨{ groupId := .text "g" }, bilingual, []⟩ (rejoining 0 1) := by
    apply hbegin.operateAll
    simp only [List.forall_mem_cons]
    exact ⟨trivial, hb, trivial, trivial, nofun⟩
  have hmade := hcourse.ids_made_up fun _ => ⟨_, {}, rfl⟩
  have hwelcome : Welcome (rejoining 0 1) ⟨0, []⟩ := by decide +kernel
  have hcount : (rejoining 0 1).group.nextMember = 2 := by decide +kernel
  have hfree := (hmade.2.2.1 _ hwelcome).1
  rw [hcount] at hfree
  exact ⟨hcourse, by decide +kernel, hfree (by decide +kernel), (hmade.2.2.2 fun _ => id).1 _ hwelcome,
    hmade.2.1 ⟨2, []⟩ none (by decide +kernel)⟩

def namesake (i : Fin 3) : World (Fin 3) :=
  left (operate (.join ⟨i, []⟩ (some "member-1"))) ⟨{ groupId := .text "g" }, bilingual, []⟩

theorem Course.made_up_id_taken :
    Course (fun _ => True) ⟨{ groupId := .text "g" }, bilingual, []⟩ (namesake 0) ∧
      Welcome (namesake 0) ⟨1, []⟩ ∧ (namesake 0).group.nextMember = 1 ∧
      ∃ w', join ⟨1, []⟩ none (namesake 0) = .error (.alreadyJoined "member-1") w' ∧
        w'.group.nextMember = 2 := by
  have hbegin : Course (fun _ => True) ⟨{ groupId := .text "g" }, bilingual, []⟩ _ := .begin
  have hcourse : Course (fun _ => True) ⟨{ groupId := .text "g" }, bilingual, []⟩ (namesake 0) :=
    hbegin.operate _ trivial
  have hwelcome : Welcome (namesake 0) ⟨1, []⟩ := by decide +kernel
  have hrefused := join_of_taken (hcourse.founded fun _ => ⟨_, {}, rfl⟩) hwelcome none
    (by decide +kernel)
  exact ⟨hcourse, hwelcome, by decide +kernel, _, hrefused, by decide +kernel⟩

end PrimaryElection.Group
