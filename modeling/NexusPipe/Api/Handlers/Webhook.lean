import NexusPipe.Paging

namespace NexusPipe.Api.Handlers
open Library

structure WebhookHandler (W D : Type) where
  webhooks : GoMap String W
  deliveries : GoMap String (List D)

structure DeliveryHistoryQuery where
  Page : Int
  PerPage : Int
  deriving DecidableEq, Repr

structure ResponseMeta where
  Page : Int
  PerPage : Int
  Total : Int
  TotalPages : Int
  deriving DecidableEq, Repr

inductive HistoryResponse (D : Type)
  | notFound (message : String)
  | badRequest (message : Text)
  | paginated (data : List D) (page : ResponseMeta)
  deriving DecidableEq, Repr

def paginated {D : Type} (data : List D) (page perPage total : Int) : HistoryResponse D :=
  .paginated data ⟨page, perPage, total, Paging.totalPages total perPage⟩

def WebhookHandler.deliveryHistory {W D : Type} (h : WebhookHandler W D) (id : String)
    (query : Except Text DeliveryHistoryQuery) : Except Fault (HistoryResponse D) :=
  if id ∉ h.webhooks then .ok (.notFound "Webhook not found")
  else
    match query with
    | .error err => .ok (.badRequest (sprintf "Invalid query parameters: %s" [err]))
    | .ok query => do
      let page := Paging.page query.Page
      let perPage := Paging.perPage query.PerPage
      let deliveries := h.deliveries.get id
      let shown ← Paging.sliced deliveries page perPage
      return paginated shown page perPage deliveries.length

end NexusPipe.Api.Handlers
