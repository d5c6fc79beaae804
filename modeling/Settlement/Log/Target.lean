/-!
The parts of the program that log, by the names that filters match and JSON records show.
-/

namespace Settlement.Log.Target

def daemon : String := "transfer_saga"
def database : String := "transfer_saga::db"
def schema : String := "transfer_saga::db::schema"
def memoryLedger : String := "transfer_saga::ledger::memory"
def sqlLedger : String := "transfer_saga::ledger::postgres"
def limits : String := "transfer_saga::limits"
def categories : String := "transfer_saga::category"
def rates : String := "transfer_saga::rates"
def service : String := "transfer_saga::saga::coordinator"
def strategy : String := "transfer_saga::saga::strategy"
def sqlStore : String := "transfer_saga::saga::db"
def sweep : String := "transfer_saga::saga::worker"

end Settlement.Log.Target
