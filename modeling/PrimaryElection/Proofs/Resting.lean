import PrimaryElection.Proofs.Listening

namespace PrimaryElection

open HookM

theorem prefix_of_quiet {r r' : Run} (h : Quiet r r') : notices r.trace <+: notices r'.trace :=
  ⟨[], (List.append_nil _).trans h.notices.symm⟩

def Node.Willing (n : Node) : Prop := n.phase = .active ∨ n.phase = .synced ∨ n.rejoinNeeded = true

/-- What any work on a node keeps, the listener having been told of what is given to begin with. -/
structure Keeps (given : List Notice) (r r' : Run) : Prop where
  config : r'.node.config = r.node.config
  willing : r.node.Willing → r'.node.Willing
  rests : r.node.phase.Rests → r'.node.phase.Rests
  synced : r.node.phase = .synced →
    r'.node.phase.Rests ∨ (r'.node.phase = .synced ∧ r'.node.accepted = r.node.accepted)
  revoking : r.node.phase = .revoking → r'.node.phase = .revoking
  told : notices r.trace ++ given <+: notices r'.trace

namespace Keeps

theorem of_node {given : List Notice} {r r' : Run} (hconfig : r'.node.config = r.node.config)
    (hphase : r'.node.phase = r.node.phase) (haccepted : r'.node.accepted = r.node.accepted)
    (hrejoin : r.node.rejoinNeeded = true → r'.node.rejoinNeeded = true)
    (hnotices : notices r'.trace = notices r.trace ++ given) : Keeps given r r' where
  config := hconfig
  willing := by
    unfold Node.Willing
    rw [hphase]
    exact Or.imp_right (Or.imp_right hrejoin)
  rests := by rw [hphase]; exact id
  synced := fun h => .inr ⟨hphase.trans h, haccepted⟩
  revoking := hphase.trans
  told := ⟨[], (List.append_nil _).trans hnotices.symm⟩

theorem refl (r : Run) : Keeps [] r r := of_node rfl rfl rfl id (List.append_nil _).symm

theorem of_undisturbed {r r' : Run} (h : Undisturbed r r') : Keeps [] r r' := by
  apply of_node _ h.phase
  · rw [h.node]
  · exact h.rejoin
  · rw [h.notices, List.append_nil]
  · rw [h.node]

theorem trans {given : List Notice} {r r' r'' : Run} (h : Keeps given r r') (h' : Keeps [] r' r'') :
    Keeps given r r'' where
  config := h'.config.trans h.config
  willing := fun hr => h'.willing (h.willing hr)
  rests := fun hr => h'.rests (h.rests hr)
  synced := by
    intro hr
    rcases h.synced hr with hrests | ⟨hsynced, haccepted⟩
    · exact .inl (h'.rests hrests)
    · rcases h'.synced hsynced with hrests | ⟨hsynced', haccepted'⟩
      · exact .inl hrests
      · exact .inr ⟨hsynced', haccepted'.trans haccepted⟩
  revoking := fun hr => h'.revoking (h.revoking hr)
  told := by
    have htold := h'.told
    rw [List.append_nil] at htold
    exact h.told.trans htold

theorem not_following {given : List Notice} {r r' : Run} (h : Keeps given r r')
    (hr : r.node.phase ≠ .following) : r'.node.phase ≠ .following := by
  cases hp : r.node.phase with
  | following => exact (hr hp).elim
  | synced =>
    rcases h.synced hp with hrests' | ⟨hsynced, _⟩
    · exact hrests'.not_following
    · rw [hsynced]
      decide
  | revoking =>
    rw [h.revoking hp]
    decide
  | joining => exact (h.rests (.inl hp)).not_following
  | leading => exact (h.rests (.inr (.inl hp))).not_following
  | active => exact (h.rests (.inr (.inr hp))).not_following

theorem of_rests {r r' : Run} (hconfig : r'.node.config = r.node.config)
    (hrests : r'.node.phase.Rests) (hrevoking : r.node.phase ≠ .revoking)
    (hwilling : r.node.Willing → r'.node.Willing) (htold : notices r.trace <+: notices r'.trace) :
    Keeps [] r r' where
  config := hconfig
  willing := hwilling
  rests := fun _ => hrests
  synced := fun _ => .inl hrests
  revoking := fun h => (hrevoking h).elim
  told := by rw [List.append_nil]; exact htold

end Keeps

def Conserves (tell : Notice → HookM Unit) : Prop :=
  ∀ notice r, r.node.phase ≠ .following → After (tell notice) r fun _ r' => Keeps [notice] r r'

theorem after_compute_keeps {epoch : Int} {leader : Value} {members : Roster Payload} {r : Run} :
    After (Node.compute epoch leader members) r fun _ r' => Keeps [] r r' := by
  by_cases hrefused : r.node.phase = .active ∨ r.node.phase = .revoking
  · apply (Node.after_compute_refused hrefused).mono
    rintro _ s ⟨_, hs, hq⟩
    exact .of_undisturbed (.of_quiet hs hq)
  · obtain ⟨hactive, hrevoking⟩ := not_or.mp hrefused
    apply (Node.after_compute hactive hrevoking).mono
    rintro _ s ⟨_, hs, hq⟩
    refine .of_rests (by rw [hs]) (.inr (.inl (by rw [hs]))) hrevoking ?_ (prefix_of_quiet hq)
    rintro (hwilling | hwilling | hwilling)
    · exact (hactive hwilling).elim
    · exact .inr (.inr (by simp [hs, hwilling, Phase.inRound]))
    · exact .inr (.inr (by simp [hs, hwilling]))

theorem gives_tellSafely_keeps {tell : Notice → HookM Unit} {notice : Notice} {r : Run}
    (h : After (tell notice) r fun _ r' => Keeps [notice] r r') :
    Gives (tellSafely tell notice) r fun _ r' => Keeps [notice] r r' := by
  apply gives_tellSafely
  apply h.mono
  intro _ s hs s' hs' hq
  exact hs.trans (.of_undisturbed (.of_quiet hs' hq))

theorem after_complete_kept {tell : Notice → HookM Unit} {epoch : Int} {memberId : MemberId}
    {data : Payload} {r : Run} {o : Outcome}
    (htell : Conserves tell)
    (hphase : r.node.phase = .joining ∨ r.node.phase = .leading)
    (hdata : Outcome.decode data = .ok o) (hlater : r.node.epoch < epoch) :
    After (Node.complete tell epoch memberId data) r fun result r' =>
      (result = .ok () → r'.node.phase = .active ∧ r'.node.accepted = some ⟨epoch, memberId, o⟩) ∧
      r'.node.config = r.node.config ∧ r'.node.phase.Rests ∧ r'.node.Willing ∧
      notices r.trace ++ [.assigned o epoch] <+: notices r'.trace := by
  apply Node.after_complete_accepted hphase hdata hlater
  intro entered he hqe
  have htold := gives_tellSafely_keeps (htell (.assigned o epoch) entered (by simp [he]))
  refine htold.bind_after ?_
  intro _ s hs
  have hnotices := hs.told
  rw [hqe.notices] at hnotices
  have hconfig : s.node.config = r.node.config := hs.config.trans (by rw [he])
  rcases hs.synced (by rw [he]) with hrests | ⟨hsynced, haccepted⟩
  · apply after_of_error (Node.move_eq_error hrests.not_to_active)
    intro closed hclosed hqc
    rw [hclosed, hqc.notices]
    exact ⟨by simp, hconfig, hrests, hs.willing (.inr (.inl (by rw [he]))), hnotices⟩
  · apply (Node.gives_move (by rw [hsynced]; rfl)).after
    rintro _ t ⟨ht, hqt⟩ closed hclosed hqc
    refine ⟨fun _ => ⟨by rw [hclosed, ht], ?_⟩, by rw [hclosed, ht]; exact hconfig,
      .inr (.inr (by rw [hclosed, ht])), .inl (by rw [hclosed, ht]), ?_⟩
    · rw [hclosed, ht]
      exact haccepted.trans (by rw [he])
    · rw [hqc.notices, hqt.notices]
      exact hnotices

theorem after_complete_keeps {tell : Notice → HookM Unit} {epoch : Int} {memberId : MemberId}
    {data : Payload} {r : Run} (hfollowing : r.node.phase ≠ .following)
    (htell : Conserves tell) :
    After (Node.complete tell epoch memberId data) r fun _ r' => Keeps [] r r' := by
  by_cases hrefused : r.node.phase = .synced ∨ r.node.phase = .active ∨ r.node.phase = .revoking
  · apply (Node.after_complete_refused hrefused).mono
    rintro _ s ⟨_, hs, hq⟩
    exact .of_undisturbed (.of_quiet hs hq)
  have hphase := Phase.free_of_not_refused hfollowing hrefused
  have hrevoking : r.node.phase ≠ .revoking := fun h => hrefused (.inr (.inr h))
  cases hdata : Outcome.decode data with
  | error e =>
    apply (Node.after_complete_undecodable hphase hdata).mono
    rintro _ s ⟨_, hs, hq⟩
    exact .of_rests (by rw [hs]) (.inl (by rw [hs])) hrevoking (fun _ => .inr (.inr (by rw [hs])))
      (prefix_of_quiet hq)
  | ok o =>
    by_cases hstale : epoch ≤ r.node.epoch
    · apply (Node.after_complete_stale hphase hdata hstale).mono
      rintro _ s ⟨_, hs, hq⟩
      exact .of_rests (by rw [hs]) (.inl (by rw [hs])) hrevoking (fun _ => .inr (.inr (by rw [hs])))
        (prefix_of_quiet hq)
    · apply (after_complete_kept htell hphase hdata (Int.not_le.mp hstale)).mono
      rintro _ s ⟨_, hconfig, hrests, hwilling, htold⟩
      exact .of_rests hconfig hrests hrevoking (fun _ => hwilling) ((List.prefix_append _ _).trans htold)

theorem gives_revoke_keeps {tell : Notice → HookM Unit} {r : Run}
    (hfollowing : r.node.phase ≠ .following) (htell : Conserves tell) :
    Gives (Node.revoke tell) r fun _ r' => Keeps [] r r' := by
  have hrevoke : After (Node.revoke tell) r fun result r' => result = .ok () ∧ Keeps [] r r' := by
    cases hp : r.node.phase with
    | following => exact (hfollowing hp).elim
    | synced =>
      apply (Node.gives_revoke_synced hp).after
      rintro _ s ⟨hs, hq⟩
      exact ⟨rfl, .of_undisturbed (.of_rejoin hs hq)⟩
    | revoking => exact after_of_ok (Node.revoke_revoking hp) ⟨rfl, .refl r⟩
    | active =>
      apply Node.after_revoke_active hp
      intro entered he hqe
      have htold := gives_tellSafely_keeps (htell .revoked entered (by simp [he]))
      refine htold.bind_after ?_
      intro _ s hs
      have hrevoking := hs.revoking (by rw [he])
      have hconfig : s.node.config = r.node.config := hs.config.trans (by rw [he])
      apply (Node.gives_move (by rw [hrevoking]; rfl)).after
      rintro _ t ⟨ht, hqt⟩ closed hclosed hqc
      have hrejoin : s.node.rejoinNeeded = true := by
        rcases hs.willing (.inr (.inr (by rw [he]))) with h | h | h
        · rw [hrevoking] at h
          cases h
        · rw [hrevoking] at h
          cases h
        · exact h
      refine ⟨rfl, Keeps.of_rests (by rw [hclosed, ht]; exact hconfig) (.inl (by rw [hclosed, ht]))
        (by rw [hp]; decide) ?_ ?_⟩
      · exact fun _ => .inr (.inr (by rw [hclosed, ht]; exact hrejoin))
      · rw [hqc.notices, hqt.notices, ← hqe.notices]
        exact (List.prefix_append _ _).trans hs.told
    | joining | leading =>
      apply (Node.after_revoke_idle (by simp [hp])).mono
      rintro _ s ⟨hresult, hs, hq⟩
      exact ⟨hresult, .of_rests (by rw [hs]) (.inl (by rw [hs])) (by rw [hp]; decide)
        (fun _ => .inr (.inr (by rw [hs]))) (prefix_of_quiet hq)⟩
  exact gives_of_after hrevoke

theorem after_perform_keeps {tell : Notice → HookM Unit} {c : Call} {r : Run}
    (hfollowing : r.node.phase ≠ .following)
    (htell : Conserves tell) :
    After (perform tell c) r fun _ r' => Keeps [] r r' := by
  cases hidle : c.idle with
  | true => exact (after_perform_idle hidle r).mono fun _ _ h => .of_undisturbed h
  | false =>
    cases c with
    | compute epoch leader members =>
      refine after_perform_compute ?_ fun _ _ => .refl r
      intro pairs _
      apply after_compute_keeps.mono
      intro _ s hs
      exact hs.trans (.of_node rfl rfl rfl id (List.append_nil _).symm)
    | complete epoch memberId data =>
      refine after_perform_complete ?_ fun _ _ => .refl r
      exact fun payload _ => after_complete_keeps hfollowing htell
    | revoke => exact after_perform_revoke ((gives_revoke_keeps hfollowing htell).after fun _ _ h => h)
    | _ => cases hidle

theorem after_act_keeps {tell : Notice → HookM Unit} {kind : Notice.Kind} {a : Action} {r : Run}
    (hfollowing : r.node.phase ≠ .following) (htell : Conserves tell) :
    After (act tell kind a) r fun _ r' => Keeps [] r r' := by
  cases a with
  | raise message => exact after_throw (.refl r)
  | call c caught =>
    apply after_act_call
    apply (after_perform_keeps hfollowing htell).mono
    intro _ s hs
    exact hs.trans (.of_node rfl rfl rfl id (by simp [notices]))

theorem after_actAll_keeps {tell : Notice → HookM Unit} {kind : Notice.Kind} {actions : List Action}
    {r : Run} (hfollowing : r.node.phase ≠ .following) (htell : Conserves tell) :
    After (actAll tell kind actions) r fun _ r' => Keeps [] r r' := by
  apply after_actAll_of (I := Keeps [] r) _ (.refl r)
  intro a _ s hs
  exact (after_act_keeps (hs.not_following hfollowing) htell).mono fun _ _ ht => hs.trans ht

theorem Conduct.conserves (l : Conduct) : Conserves l.tell := by
  induction l with
  | silent =>
    intro notice r _
    apply (gives_hear notice r).after
    rintro _ s ⟨hs, _, hheard⟩
    exact .of_node (by rw [hs]) (by rw [hs]) (by rw [hs]) hheard.rejoin hheard.notices
  | answers keeps actions inner ih =>
    intro notice r hfollowing
    apply after_answers
    intro s t ht hheard
    have htold : Keeps [notice] r t :=
      .of_node (by rw [ht]) (by rw [ht]) (by rw [ht]) hheard.rejoin hheard.notices
    apply (after_actAll_keeps (htold.not_following hfollowing) (ih notice s)).mono
    exact fun _ _ hu => htold.trans hu

theorem conserves_react (depth : Nat) : Conserves (react depth) := by
  rw [← Conduct.tell_scripted]
  exact (Conduct.scripted depth).conserves

theorem Session.runAs_keeps {s : Session} (hfollowing : s.node.phase ≠ .following) (l : Conduct) (c : Call) :
    Keeps [] ⟨s, []⟩ ⟨(s.runAs l fun tell => perform tell c).session,
      (s.runAs l fun tell => perform tell c).events⟩ :=
  runAs_of_after (fun tell => perform tell c)
    (after_perform_keeps (r := ⟨s, []⟩) hfollowing l.conserves)

namespace Session.Course

variable {allowed : Notice.Kind → Call → Prop} {config : Config} {script : Script} {s : Session}
  {events : List Event}

theorem rests (h : Course allowed (.start config script) s events) : s.node.phase.Rests := by
  induction h with
  | begin => exact .inl rfl
  | @call s _ l c _ _ ih =>
    exact (runAs_keeps ih.not_following l c).rests ih

theorem config_eq (h : Course allowed (.start config script) s events) : s.node.config = config := by
  induction h with
  | begin => rfl
  | @call s _ l c hcourse _ ih =>
    exact (runAs_keeps hcourse.rests.not_following l c).config.trans ih

theorem willing (h : Course allowed (.start config script) s events) : s.node.Willing := by
  induction h with
  | begin => exact .inr (.inr rfl)
  | @call s _ l c hcourse _ ih =>
    exact (runAs_keeps hcourse.rests.not_following l c).willing ih

theorem rejoin (h : Course allowed (.start config script) s events) (hfree : s.node.phase ≠ .active) :
    s.node.rejoinNeeded = true := by
  rcases h.willing with hactive | hsynced | hrejoin
  · exact (hfree hactive).elim
  · rcases h.rests with hp | hp | hp <;> rw [hsynced] at hp <;> cases hp
  · exact hrejoin

end Session.Course

end PrimaryElection
