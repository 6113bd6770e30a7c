import CausalWork.Snapshot

namespace CausalWork

structure Project where
  home : Store
  content : Content
  network : Network

namespace Project

variable (p : Project)

def request {α : Type} (r : StateM Memo α) : α := (r Memo.empty).1

def snapshot (kind : Kind) : StateM Memo (Except Failure Snapshot) :=
  Snapshot.load p.home p.network kind

def query {α : Type} (kind : Kind) (ask : Snapshot → Except Failure α) :
    StateM Memo (Except Failure α) := do
  return (← p.snapshot kind).bind ask

def listing (kind : Kind) : StateM Memo (Except Failure (List Row)) := p.query kind Snapshot.listing

def causalOrder (kind : Kind) : StateM Memo (Except Failure (List Artifact)) :=
  p.query kind Snapshot.causalOrder

def tips (kind : Kind) : StateM Memo (Except Failure (List Artifact)) := p.query kind Snapshot.tips

def tipsFor (kind : Kind) (pattern : String) : StateM Memo (Except Failure (List Artifact)) :=
  match Pattern.ofText? pattern with
  | .error e => return .error (.invalidPattern e)
  | .ok pattern => p.query kind fun s => s.tipsAmong pattern.covers

def latest (kind : Kind) : StateM Memo (Except Failure Artifact) := p.query kind Snapshot.latest

def dangling (kind : Kind) : StateM Memo (Except Failure (List Edge)) :=
  p.query kind fun s => .ok s.dangling

end Project

end CausalWork
