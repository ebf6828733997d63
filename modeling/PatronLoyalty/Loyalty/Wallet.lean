import PatronLoyalty.Loyalty.Earn

/-!
# Wallets

`LoyaltyWalletService`: the wallet of an account, created on first use for accounts that lack one,
and its adjustments. A debit is a conditional update; either way the transaction row is inserted
after the balance has changed, in the same transaction.
-/

namespace PatronLoyalty.Loyalty

open Txn

/-- `loyaltyWalletAdjustSchema`: what a caller may ask for. -/
structure WalletAdjust where
  type : WalletTxType
  amountCents : ℤ
  description : Option String := none
  valid : 1 ≤ amountCents

/-- The `amountCents` column of its transaction. -/
def WalletAdjust.delta (data : WalletAdjust) : ℤ :=
  if data.type = .debit then -data.amountCents else data.amountCents

def WalletAdjust.row (data : WalletAdjust) (orgId walletId : Id) (balanceAfter : ℤ)
    (createdAt : Time) : LoyaltyWalletTransaction where
  orgId := orgId
  walletId := walletId
  type := data.type
  amountCents := data.delta
  balanceAfter := balanceAfter
  description := data.description
  sourceType := some "manual"
  createdAt := createdAt

def LoyaltyWallet.add (amountCents : ℤ) (w : LoyaltyWallet) : LoyaltyWallet :=
  { w with balanceCents := w.balanceCents + amountCents }

abbrev WalletView := Id × LoyaltyWallet

def ensureWallet (orgId : Id) (account : AccountWithTier) : LCall WalletView :=
  match account.wallet with
  | some wallet => pure wallet
  | none =>
    try
      withTenant do
        let id ← create .wallet { orgId, accountId := account.id }
        pure (id, { orgId, accountId := account.id })
    catch err =>
      if err == .uniqueViolation then
        withTenant (findFirstOrThrow orgId .wallet fun _ w => w.accountId == account.id)
      else throw err

structure WalletStatement where
  wallet : WalletView
  transactions : List LoyaltyWalletTransaction

def recentTransactions (orgId walletId : Id) : LTx (List LoyaltyWalletTransaction) := do
  let rows ← findMany orgId .walletTransaction fun _ t => t.walletId == walletId
  let newestFirst := (rows.map (·.2)).insertionSort fun t t' => t'.createdAt ≤ t.createdAt
  pure (newestFirst.take 30)

def getWallet (orgId customerId : Id) : LCall WalletStatement := do
  requireEnabled orgId
  let account ← ensureAccountOrThrow orgId customerId
  let wallet ← ensureWallet orgId account
  let transactions ← withTenant (recentTransactions orgId wallet.1)
  pure ⟨wallet, transactions⟩

def insufficientWalletBalance : Err := .badRequest "Insufficient wallet balance"

def debitWallet (orgId walletId : Id) (amountCents : ℤ) : LTx ℤ := do
  let debited ← updateMany orgId .wallet walletId
    (fun w => w.orgId == orgId && decide (amountCents ≤ w.balanceCents))
    (LoyaltyWallet.add (-amountCents))
  if debited = 0 then Tx.throw insufficientWalletBalance
  else
    let wallet ← findByIdOrThrow orgId .wallet walletId
    pure wallet.balanceCents

def creditWallet (orgId walletId : Id) (amountCents : ℤ) : LTx ℤ := do
  let wallet ← update orgId .wallet walletId (LoyaltyWallet.add amountCents)
  pure wallet.balanceCents

def changeBalance (orgId walletId : Id) (data : WalletAdjust) : LTx ℤ :=
  if data.type = .debit then debitWallet orgId walletId data.amountCents
  else creditWallet orgId walletId data.amountCents

/-- The transaction of `adjustWallet`. -/
def adjustWalletTx (orgId walletId : Id) (data : WalletAdjust) : LTx LoyaltyWallet := do
  let balanceAfter ← changeBalance orgId walletId data
  let createdAt ← now
  let _ ← create .walletTransaction (data.row orgId walletId balanceAfter createdAt)
  findByIdOrThrow orgId .wallet walletId

def adjustWallet (orgId customerId : Id) (data : WalletAdjust) : LCall WalletView := do
  requireEnabled orgId
  let account ← ensureAccountOrThrow orgId customerId
  let wallet ← ensureWallet orgId account
  let adjusted ← withTenant (adjustWalletTx orgId wallet.1 data)
  pure (wallet.1, adjusted)

/-- `LoyaltyIntegrationService.adjustWallet`. -/
def integrationAdjustWallet (orgId : Id) (customer : CustomerRef) (data : WalletAdjust) :
    LCall WalletView := do
  let found ← resolveCustomerOrThrow orgId customer
  adjustWallet orgId found.1 data

end PatronLoyalty.Loyalty
